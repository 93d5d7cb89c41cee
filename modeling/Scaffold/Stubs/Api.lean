/-!
The packaged templates of the API category.
-/

namespace Scaffold.Stubs.Api

def controller : String := r#"<?php

namespace {{ namespace }};

use App\Http\Controllers\Controller;
use {{ serviceNamespace }}\{{ serviceClass }};
use {{ createDTONamespace }}\{{ createDTOClass }};
use {{ updateDTONamespace }}\{{ updateDTOClass }};
use {{ filterDTONamespace }}\{{ filterDTOClass }};
use {{ exceptionNamespace }}\{{ exceptionClass }};
use {{ storeRequestNamespace }}\{{ storeRequestClass }};
use {{ updateRequestNamespace }}\{{ updateRequestClass }};
use {{ resourceNamespace }}\{{ resourceClass }};
use {{ collectionNamespace }}\{{ collectionClass }};
use Illuminate\Http\JsonResponse;
use Illuminate\Http\Request;

class {{ class }} extends Controller
{
    public function __construct(
        private readonly {{ serviceClass }} ${{ serviceVariable }}
    ) {
    }

    public function index(Request $request): {{ collectionClass }}
    {
        $filters = {{ filterDTOClass }}::fromRequest(
            array_merge(['per_page' => {{ perPage }}], $request->query())
        );

        return new {{ collectionClass }}($this->{{ serviceVariable }}->list($filters));
    }

    public function store({{ storeRequestClass }} $request): JsonResponse
    {
        ${{ modelVariable }} = $this->{{ serviceVariable }}->create(
            {{ createDTOClass }}::fromRequest($request->validated())
        );

        return response()->json([
            '{{ successKey }}' => true,
            '{{ messageKey }}' => '{{ modelTitle }} created successfully.',
            '{{ dataKey }}' => new {{ resourceClass }}(${{ modelVariable }}),
        ], 201);
    }

    public function show(int $id): JsonResponse
    {
        try {
            ${{ modelVariable }} = $this->{{ serviceVariable }}->find($id);
        } catch ({{ exceptionClass }} $e) {
            return $this->notFound($e);
        }

        return response()->json([
            '{{ successKey }}' => true,
            '{{ dataKey }}' => new {{ resourceClass }}(${{ modelVariable }}),
        ]);
    }

    public function update({{ updateRequestClass }} $request, int $id): JsonResponse
    {
        try {
            ${{ modelVariable }} = $this->{{ serviceVariable }}->update(
                $id,
                {{ updateDTOClass }}::fromRequest($request->validated())
            );
        } catch ({{ exceptionClass }} $e) {
            return $this->notFound($e);
        }

        return response()->json([
            '{{ successKey }}' => true,
            '{{ messageKey }}' => '{{ modelTitle }} updated successfully.',
            '{{ dataKey }}' => new {{ resourceClass }}(${{ modelVariable }}),
        ]);
    }

    public function destroy(int $id): JsonResponse
    {
        try {
            $this->{{ serviceVariable }}->delete($id);
        } catch ({{ exceptionClass }} $e) {
            return $this->notFound($e);
        }

        return response()->json([
            '{{ successKey }}' => true,
            '{{ messageKey }}' => '{{ modelTitle }} deleted successfully.',
        ]);
    }

    private function notFound({{ exceptionClass }} $e): JsonResponse
    {
        return response()->json([
            '{{ successKey }}' => false,
            '{{ messageKey }}' => $e->getMessage(),
            '{{ errorsKey }}' => [],
        ], 404);
    }
}
"#

def requestStore : String := r#"<?php

namespace {{ namespace }};

use Illuminate\Contracts\Validation\Validator;
use Illuminate\Foundation\Http\FormRequest;
use Illuminate\Http\Exceptions\HttpResponseException;

class {{ class }} extends FormRequest
{
    public function authorize(): bool
    {
        return true;
    }

    public function rules(): array
    {
        return [
{{ validationRules }}
        ];
    }

    protected function failedValidation(Validator $validator): void
    {
        throw new HttpResponseException(response()->json([
            '{{ successKey }}' => false,
            '{{ messageKey }}' => 'Validation failed.',
            '{{ errorsKey }}' => $validator->errors(),
        ], 422));
    }
}
"#

def requestUpdate : String := r#"<?php

namespace {{ namespace }};

use Illuminate\Contracts\Validation\Validator;
use Illuminate\Foundation\Http\FormRequest;
use Illuminate\Http\Exceptions\HttpResponseException;

class {{ class }} extends FormRequest
{
    public function authorize(): bool
    {
        return true;
    }

    public function rules(): array
    {
        return [
{{ validationRules }}
        ];
    }

    protected function failedValidation(Validator $validator): void
    {
        throw new HttpResponseException(response()->json([
            '{{ successKey }}' => false,
            '{{ messageKey }}' => 'Validation failed.',
            '{{ errorsKey }}' => $validator->errors(),
        ], 422));
    }
}
"#

def resource : String := r#"<?php

namespace {{ namespace }};

use Illuminate\Http\Request;
use Illuminate\Http\Resources\Json\JsonResource;

/**
 * @mixin \{{ modelClass }}
 */
class {{ class }} extends JsonResource
{
    public function toArray(Request $request): array
    {
        return [
{{ resourceFields }}
        ];
    }
}
"#

def collection : String := r#"<?php

namespace {{ namespace }};

use Illuminate\Http\Request;
use Illuminate\Http\Resources\Json\ResourceCollection;

class {{ class }} extends ResourceCollection
{
    public $collects = {{ resourceClass }}::class;

    public function toArray(Request $request): array
    {
        return [
            '{{ successKey }}' => true,
            '{{ dataKey }}' => $this->collection,
            '{{ metaKey }}' => [
                'total' => $this->resource->total(),
                'per_page' => $this->resource->perPage(),
                'current_page' => $this->resource->currentPage(),
                'last_page' => $this->resource->lastPage(),
            ],
        ];
    }
}
"#

end Scaffold.Stubs.Api
