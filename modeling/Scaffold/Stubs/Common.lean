/-!
The packaged templates of the classes that both categories share.
-/

namespace Scaffold.Stubs.Common

def service : String := r#"<?php

namespace {{ namespace }};

use {{ modelClass }};
use {{ repositoryInterfaceNamespace }}\{{ repositoryInterfaceClass }};
use {{ createDTONamespace }}\{{ createDTOClass }};
use {{ updateDTONamespace }}\{{ updateDTOClass }};
use {{ filterDTONamespace }}\{{ filterDTOClass }};
use {{ exceptionNamespace }}\{{ exceptionClass }};
use Illuminate\Contracts\Pagination\LengthAwarePaginator;
use Illuminate\Support\Facades\DB;

class {{ class }}
{
    public function __construct(
        private readonly {{ repositoryInterfaceClass }} ${{ repositoryVariable }}
    ) {
    }

    public function list({{ filterDTOClass }} $filters): LengthAwarePaginator
    {
        return $this->{{ repositoryVariable }}->paginate($filters);
    }

    public function find(int $id): {{ model }}
    {
        return $this->{{ repositoryVariable }}->find($id)
            ?? throw {{ exceptionClass }}::notFound($id);
    }

    public function create({{ createDTOClass }} $data): {{ model }}
    {
        return DB::transaction(
            fn () => $this->{{ repositoryVariable }}->create($data->toArray())
        );
    }

    public function update(int $id, {{ updateDTOClass }} $data): {{ model }}
    {
        ${{ modelVariable }} = $this->find($id);
        $attributes = array_filter($data->toArray(), fn ($value) => $value !== null);

        return DB::transaction(
            fn () => $this->{{ repositoryVariable }}->update(${{ modelVariable }}, $attributes)
        );
    }

    public function delete(int $id): bool
    {
        return $this->{{ repositoryVariable }}->delete($this->find($id));
    }
}
"#

def repository : String := r#"<?php

namespace {{ namespace }};

use {{ modelClass }};
use {{ repositoryInterfaceNamespace }}\{{ repositoryInterfaceClass }};
use {{ filterDTONamespace }}\{{ filterDTOClass }};
use Illuminate\Contracts\Pagination\LengthAwarePaginator;
use Illuminate\Database\Eloquent\Builder;

class {{ class }} implements {{ repositoryInterfaceClass }}
{
    private const SORTABLE = [{{ sortableFields }}];

    public function paginate({{ filterDTOClass }} $filters): LengthAwarePaginator
    {
        $query = {{ model }}::query();

        if ($filters->search !== null && $filters->search !== '') {
            $query->where(function (Builder $q) use ($filters) {
{{ searchFields }}
            });
        }

        $sortBy = in_array($filters->sortBy, self::SORTABLE, true) ? $filters->sortBy : 'id';
        $direction = $filters->sortDirection === 'asc' ? 'asc' : 'desc';

        return $query->orderBy($sortBy, $direction)->paginate($filters->perPage);
    }

    public function find(int $id): ?{{ model }}
    {
        return {{ model }}::find($id);
    }

    public function create(array $attributes): {{ model }}
    {
        return {{ model }}::create($attributes);
    }

    public function update({{ model }} ${{ modelVariable }}, array $attributes): {{ model }}
    {
        ${{ modelVariable }}->update($attributes);

        return ${{ modelVariable }}->refresh();
    }

    public function delete({{ model }} ${{ modelVariable }}): bool
    {
        return (bool) ${{ modelVariable }}->delete();
    }
}
"#

def repositoryInterface : String := r#"<?php

namespace {{ namespace }};

use {{ modelClass }};
use {{ filterDTONamespace }}\{{ filterDTOClass }};
use Illuminate\Contracts\Pagination\LengthAwarePaginator;

interface {{ class }}
{
    public function paginate({{ filterDTOClass }} $filters): LengthAwarePaginator;

    public function find(int $id): ?{{ model }};

    public function create(array $attributes): {{ model }};

    public function update({{ model }} ${{ modelVariable }}, array $attributes): {{ model }};

    public function delete({{ model }} ${{ modelVariable }}): bool;
}
"#

def dtoCreate : String := r#"<?php

namespace {{ namespace }};

final class {{ class }}
{
    public function __construct(
{{ constructorProperties }}
    ) {
    }

    public static function fromRequest(array $data): self
    {
        return new self(
{{ fromRequestProperties }}
        );
    }

    public function toArray(): array
    {
        return [
{{ toArrayProperties }}
        ];
    }
}
"#

def dtoUpdate : String := r#"<?php

namespace {{ namespace }};

/**
 * Partial update of a {{ modelTitle }}: every property is optional and
 * null means "leave unchanged".
 */
final class {{ class }}
{
    public function __construct(
{{ constructorProperties }}
    ) {
    }

    public static function fromRequest(array $data): self
    {
        return new self(
{{ fromRequestProperties }}
        );
    }

    public function toArray(): array
    {
        return [
{{ toArrayProperties }}
        ];
    }
}
"#

def dtoFilter : String := r#"<?php

namespace {{ namespace }};

final class {{ class }}
{
    public function __construct(
        public readonly ?string $search = null,
        public readonly string $sortBy = 'id',
        public readonly string $sortDirection = 'desc',
        public readonly int $perPage = {{ apiPerPage }},
    ) {
    }

    public static function fromRequest(array $data): self
    {
        return new self(
            search: $data['search'] ?? null,
            sortBy: $data['sort_by'] ?? 'id',
            sortDirection: $data['sort_direction'] ?? 'desc',
            perPage: (int) ($data['per_page'] ?? {{ apiPerPage }}),
        );
    }
}
"#

def exception : String := r#"<?php

namespace {{ namespace }};

use Exception;
use Throwable;

class {{ class }} extends Exception
{
    public static function notFound(int $id): self
    {
        return new self("{{ modelTitle }} with id {$id} not found.", 404);
    }

    public static function operationFailed(string $operation, ?Throwable $previous = null): self
    {
        return new self("Failed to {$operation} {{ modelLower }}.", 500, $previous);
    }
}
"#

end Scaffold.Stubs.Common
