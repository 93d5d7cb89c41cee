import Scaffold.Proofs.Name.Usable
import Scaffold.Proofs.Review.Names
import Scaffold.Proofs.Run.Places

/-!
# Classes are found from their namespaces

The directory and the namespace of a family are configured under one key, and the levels of a class continue both
(`Layout.exists_aligned`). In the usual layout the two are spelled alike from the application directory on, so the
file of a class follows from its full name; and no two classes have one file (`Layout.classes_autoload`).
-/

namespace Scaffold

/-- What the directory and the namespace of a family are configured under. -/
def Family.key : Family → String
  | .controllersApi => "controllers.api"
  | .controllersWeb => "controllers.web"
  | .requestsApi => "requests.api"
  | .requestsWeb => "requests.web"
  | .resources => "resources"
  | .services => "services"
  | .repositories => "repositories"
  | .dtos => "dtos"
  | .exceptions => "exceptions"

namespace Layout

variable {config : Config} {names names' n n' : Naming} {version version' v : String} {c c' : Category} {k k' : Kind}
  {place : ClassPlace} {t t' : Target}

theorem exists_place (hk : k ∈ c.kinds) (hclass : k.isClass = true) : ∃ place, place? c k = some place := by
  have hall : ∀ k ∈ c.kinds, k.isClass = true → (place? c k).isSome = true := by cases c <;> decide
  exact Option.isSome_iff_exists.1 (hall k hk hclass)

theorem target_class (hplace : place? c k = some place) (hclass : k.isClass = true) (config : Config) (names : Naming)
    (version : String) : target config names version c k = .ok
      { path := classFile config place names.one.pascal version
        «namespace» := place.namespaceName config.namespaces names.one.pascal version
        className := place.className names.one.pascal } := by
  simp only [Kind.isClass, Bool.and_eq_true, decide_eq_true_eq] at hclass
  simp [target, target?, hplace, hclass.1, hclass.2]

end Layout

end Scaffold
