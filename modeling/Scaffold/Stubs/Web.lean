/-!
The packaged templates of the web category: classes and views.
-/

namespace Scaffold.Stubs.Web

def controller : String := r#"<?php

namespace {{ namespace }};

use App\Http\Controllers\Controller;
use {{ modelClass }};
use {{ serviceNamespace }}\{{ serviceClass }};
use {{ createDTONamespace }}\{{ createDTOClass }};
use {{ updateDTONamespace }}\{{ updateDTOClass }};
use {{ filterDTONamespace }}\{{ filterDTOClass }};
use {{ exceptionNamespace }}\{{ exceptionClass }};
use {{ storeRequestNamespace }}\{{ storeRequestClass }};
use {{ updateRequestNamespace }}\{{ updateRequestClass }};
use Illuminate\Http\RedirectResponse;
use Illuminate\Http\Request;
use Illuminate\View\View;

class {{ class }} extends Controller
{
    public function __construct(
        private readonly {{ serviceClass }} ${{ serviceVariable }}
    ) {
    }

    public function index(Request $request): View
    {
        $filters = {{ filterDTOClass }}::fromRequest(
            array_merge(['per_page' => {{ perPage }}], $request->query())
        );
        ${{ modelPluralVariable }} = $this->{{ serviceVariable }}->list($filters);

        return view('{{ viewPrefix }}.index', compact('{{ modelPluralVariable }}'));
    }

    public function create(): View
    {
        return view('{{ viewPrefix }}.create');
    }

    public function store({{ storeRequestClass }} $request): RedirectResponse
    {
        $this->{{ serviceVariable }}->create({{ createDTOClass }}::fromRequest($request->validated()));

        return redirect()
            ->route('{{ route }}.index')
            ->with('success', '{{ modelTitle }} created successfully.');
    }

    public function show(int $id): View
    {
        ${{ modelVariable }} = $this->findOrAbort($id);

        return view('{{ viewPrefix }}.show', compact('{{ modelVariable }}'));
    }

    public function edit(int $id): View
    {
        ${{ modelVariable }} = $this->findOrAbort($id);

        return view('{{ viewPrefix }}.edit', compact('{{ modelVariable }}'));
    }

    public function update({{ updateRequestClass }} $request, int $id): RedirectResponse
    {
        $this->findOrAbort($id);
        $this->{{ serviceVariable }}->update($id, {{ updateDTOClass }}::fromRequest($request->validated()));

        return redirect()
            ->route('{{ route }}.show', $id)
            ->with('success', '{{ modelTitle }} updated successfully.');
    }

    public function destroy(int $id): RedirectResponse
    {
        $this->findOrAbort($id);
        $this->{{ serviceVariable }}->delete($id);

        return redirect()
            ->route('{{ route }}.index')
            ->with('success', '{{ modelTitle }} deleted successfully.');
    }

    private function findOrAbort(int $id): {{ model }}
    {
        try {
            return $this->{{ serviceVariable }}->find($id);
        } catch ({{ exceptionClass }} $e) {
            abort(404, $e->getMessage());
        }
    }
}
"#

def requestStore : String := r#"<?php

namespace {{ namespace }};

use Illuminate\Foundation\Http\FormRequest;

class {{ class }} extends FormRequest
{
    public function authorize(): bool
    {
        return true;
    }

    public function rules(): array
    {
        return [
{{ validationRules }}
        ];
    }
}
"#

def requestUpdate : String := r#"<?php

namespace {{ namespace }};

use Illuminate\Foundation\Http\FormRequest;

class {{ class }} extends FormRequest
{
    public function authorize(): bool
    {
        return true;
    }

    public function rules(): array
    {
        return [
{{ validationRules }}
        ];
    }
}
"#

def viewIndex : String := r#"@extends('{{ layout }}')

@section('title', '{{ modelPluralTitle }}')

@section('content')
{{-- {{ viewType }}: {{ modelPluralTitle }} --}}
<div class="container">
    <div class="d-flex justify-content-between align-items-center mb-3">
        <h1>{{ modelPluralTitle }}</h1>
        <a href="{{ route('{{ route }}.create') }}" class="btn btn-primary">New {{ modelTitle }}</a>
    </div>

    @if (session('success'))
        <div class="alert alert-success">{{ session('success') }}</div>
    @endif

    <form method="GET" action="{{ route('{{ route }}.index') }}" class="mb-3">
        <input type="search" name="search" value="{{ request('search') }}" class="form-control" placeholder="Search {{ modelPluralLower }}">
    </form>

    <table class="table">
        <thead>
            <tr>
                <th>#</th>
                <th>Created</th>
                <th></th>
            </tr>
        </thead>
        <tbody>
            @forelse (${{ modelPluralVariable }} as ${{ modelVariable }})
                <tr>
                    <td>{{ ${{ modelVariable }}->id }}</td>
                    <td>{{ ${{ modelVariable }}->created_at?->format('Y-m-d H:i') }}</td>
                    <td class="text-end">
                        <a href="{{ route('{{ route }}.show', ${{ modelVariable }}->id) }}" class="btn btn-sm btn-outline-secondary">View</a>
                        <a href="{{ route('{{ route }}.edit', ${{ modelVariable }}->id) }}" class="btn btn-sm btn-outline-primary">Edit</a>
                        <form method="POST" action="{{ route('{{ route }}.destroy', ${{ modelVariable }}->id) }}" class="d-inline">
                            @csrf
                            @method('DELETE')
                            <button type="submit" class="btn btn-sm btn-outline-danger">Delete</button>
                        </form>
                    </td>
                </tr>
            @empty
                <tr>
                    <td colspan="3">No {{ modelPluralLower }} found.</td>
                </tr>
            @endforelse
        </tbody>
    </table>

    {{ ${{ modelPluralVariable }}->withQueryString()->links() }}
</div>
@endsection
"#

def viewCreate : String := r#"@extends('{{ layout }}')

@section('title', 'New {{ modelTitle }}')

@section('content')
{{-- {{ viewType }}: {{ modelTitle }} --}}
<div class="container">
    <h1>New {{ modelTitle }}</h1>

    <form method="POST" action="{{ route('{{ route }}.store') }}">
        @csrf

        @foreach ((new \{{ modelClass }})->getFillable() as $field)
            <div class="mb-3">
                <label for="{{ $field }}" class="form-label">{{ \Illuminate\Support\Str::headline($field) }}</label>
                <input id="{{ $field }}" name="{{ $field }}" value="{{ old($field) }}" class="form-control @error($field) is-invalid @enderror">
                @error($field)
                    <div class="invalid-feedback">{{ $message }}</div>
                @enderror
            </div>
        @endforeach

        <button type="submit" class="btn btn-primary">Create</button>
        <a href="{{ route('{{ route }}.index') }}" class="btn btn-link">Cancel</a>
    </form>
</div>
@endsection
"#

def viewEdit : String := r#"@extends('{{ layout }}')

@section('title', 'Edit {{ modelTitle }}')

@section('content')
{{-- {{ viewType }}: {{ modelTitle }} --}}
<div class="container">
    <h1>Edit {{ modelTitle }} #{{ ${{ modelVariable }}->id }}</h1>

    <form method="POST" action="{{ route('{{ route }}.update', ${{ modelVariable }}->id) }}">
        @csrf
        @method('PUT')

        @foreach (${{ modelVariable }}->getFillable() as $field)
            <div class="mb-3">
                <label for="{{ $field }}" class="form-label">{{ \Illuminate\Support\Str::headline($field) }}</label>
                <input id="{{ $field }}" name="{{ $field }}" value="{{ old($field, ${{ modelVariable }}->{$field}) }}" class="form-control @error($field) is-invalid @enderror">
                @error($field)
                    <div class="invalid-feedback">{{ $message }}</div>
                @enderror
            </div>
        @endforeach

        <button type="submit" class="btn btn-primary">Save</button>
        <a href="{{ route('{{ route }}.show', ${{ modelVariable }}->id) }}" class="btn btn-link">Cancel</a>
    </form>
</div>
@endsection
"#

def viewShow : String := r#"@extends('{{ layout }}')

@section('title', '{{ modelTitle }}')

@section('content')
{{-- {{ viewType }}: {{ modelTitle }} --}}
<div class="container">
    <div class="d-flex justify-content-between align-items-center mb-3">
        <h1>{{ modelTitle }} #{{ ${{ modelVariable }}->id }}</h1>
        <a href="{{ route('{{ route }}.edit', ${{ modelVariable }}->id) }}" class="btn btn-primary">Edit</a>
    </div>

    @if (session('success'))
        <div class="alert alert-success">{{ session('success') }}</div>
    @endif

    <dl class="row">
        @foreach (${{ modelVariable }}->attributesToArray() as $key => $value)
            <dt class="col-sm-3">{{ \Illuminate\Support\Str::headline($key) }}</dt>
            <dd class="col-sm-9">{{ is_scalar($value) ? $value : json_encode($value) }}</dd>
        @endforeach
    </dl>

    <a href="{{ route('{{ route }}.index') }}" class="btn btn-link">Back to {{ modelPluralLower }}</a>
</div>
@endsection
"#

end Scaffold.Stubs.Web
