/-!
The packaged templates of the route blocks.
-/

namespace Scaffold.Stubs.Routes

def api : String := r#"use {{ controllerNamespace }}\{{ controller }};

// {{ modelPluralTitle }} API {{ version }}
{{ routeGroup }}
    Route::apiResource('{{ modelPluralKebab }}', {{ controller }}::class)
        ->parameters(['{{ modelPluralKebab }}' => 'id']);
});
"#

def web : String := r#"use {{ controllerNamespace }}\{{ controller }};

// {{ modelPluralTitle }}
{{ routeGroup }}
    Route::resource('{{ modelPluralKebab }}', {{ controller }}::class)
        ->parameters(['{{ modelPluralKebab }}' => 'id']);
});
"#

end Scaffold.Stubs.Routes
