import Scaffold.Workspace

/-!
# What an action ends in

`wp x Q E s`: run on `s`, the action `x` returns a value and a state that satisfy `Q`, or fails with a
fault and a state that satisfy `E`. The `wp_*` lemmas take an action apart at its binds; `Keeps P x`
says that `x` keeps a property of the tree, however it ends, and `Blind x` that it does not look at the
workspace at all.
-/

namespace Scaffold

section
variable {ε σ α β : Type} {Q Q' : α → σ → Prop} {E E' : ε → σ → Prop} {x : EStateM ε σ α} {s s' : σ}

@[irreducible] def wp (x : EStateM ε σ α) (Q : α → σ → Prop) (E : ε → σ → Prop) (s : σ) : Prop :=
  match x s with
  | .ok a s' => Q a s'
  | .error e s' => E e s'

theorem wp_ok {a : α} (h : x s = .ok a s') : wp x Q E s ↔ Q a s' := by
  simp only [wp, h]

theorem wp_error {e : ε} (h : x s = .error e s') : wp x Q E s ↔ E e s' := by
  simp only [wp, h]

theorem wp_eq {y : EStateM ε σ α} {s₁ : σ} (h : x s = y s₁) : wp x Q E s ↔ wp y Q E s₁ := by
  unfold wp
  rw [h]

theorem wp_returns (h : wp x Q (fun _ _ => False) s) : ∃ a s', x s = .ok a s' ∧ Q a s' := by
  unfold wp at h
  cases hx : x s with
  | ok a s' => rw [hx] at h; exact ⟨a, s', rfl, h⟩
  | error e s' => rw [hx] at h; exact h.elim

theorem wp_fails (h : wp x (fun _ _ => False) E s) : ∃ e s', x s = .error e s' ∧ E e s' := by
  unfold wp at h
  cases hx : x s with
  | ok a s' => rw [hx] at h; exact h.elim
  | error e s' => rw [hx] at h; exact ⟨e, s', rfl, h⟩

theorem wp_iff : wp x Q E s ↔
    (∀ a s', x s = .ok a s' → Q a s') ∧ ∀ e s', x s = .error e s' → E e s' := by
  unfold wp
  cases x s <;> simp

theorem wp_mono (h : wp x Q E s) (hQ : ∀ a s', Q a s' → Q' a s') (hE : ∀ e s', E e s' → E' e s') :
    wp x Q' E' s := by
  unfold wp at h ⊢
  split <;> simp_all

@[simp] theorem wp_pure (a : α) : wp (pure a) Q E s ↔ Q a s := by
  unfold wp
  rfl

@[simp] theorem wp_throw (e : ε) : wp (throw e : EStateM ε σ α) Q E s ↔ E e s := by
  unfold wp
  rfl

@[simp] theorem wp_get {Q : σ → σ → Prop} : wp (get : EStateM ε σ σ) Q E s ↔ Q s s := by
  unfold wp
  rfl

@[simp] theorem wp_set {Q : PUnit → σ → Prop} (s' : σ) : wp (set s' : EStateM ε σ PUnit) Q E s ↔ Q ⟨⟩ s' := by
  unfold wp
  rfl

@[simp] theorem wp_modify {Q : PUnit → σ → Prop} (f : σ → σ) :
    wp (modify f : EStateM ε σ PUnit) Q E s ↔ Q ⟨⟩ (f s) := by
  unfold wp
  rfl

@[simp] theorem wp_bind {Q : β → σ → Prop} (f : α → EStateM ε σ β) :
    wp (x >>= f) Q E s ↔ wp x (fun a s' => wp (f a) Q E s') E s := by
  simp only [wp, bind, EStateM.bind]
  cases x s <;> rfl

@[simp] theorem wp_ite {c : Prop} [Decidable c] {y : EStateM ε σ α} :
    wp (if c then x else y) Q E s ↔ if c then wp x Q E s else wp y Q E s := by
  split <;> rfl

@[simp] theorem wp_ofExcept (r : Except ε α) :
    wp (MonadExcept.ofExcept r : EStateM ε σ α) Q E s ↔
      match r with
      | .ok a => Q a s
      | .error e => E e s := by
  unfold wp
  cases r <;> rfl

theorem wp_tryCatch (handle : ε → EStateM ε σ α) :
    wp (tryCatch x handle) Q E s ↔ wp x Q (fun e s' => wp (handle e) Q E s') s := by
  simp only [wp, tryCatch, tryCatchThe, MonadExceptOf.tryCatch]
  delta EStateM.tryCatch
  cases x s <;> rfl

end

section
variable {α β : Type} {Q : α → Workspace → Prop} {E : Fault → Workspace → Prop} {w w' : Workspace}

@[simp] theorem wp_say {Q : Unit → Workspace → Prop} (level : LogLevel) (source message : String) :
    wp (Action.say level source message) Q E w ↔ Q () { w with log := ⟨level, source, message⟩ :: w.log } := by
  unfold wp
  rfl

@[simp] theorem wp_look (f : Tree → Except Fault α) :
    wp (Action.look f) Q E w ↔
      match f w.tree with
      | .ok a => Q a w
      | .error fault => E fault w := by
  unfold wp Action.look
  cases f w.tree <;> rfl

@[simp] theorem wp_edit (e : Edit α) :
    wp (Action.edit e) Q E w ↔
      wp e (fun a t => Q a { w with tree := t }) (fun fault t => E fault { w with tree := t }) w.tree := by
  unfold wp Action.edit
  cases e w.tree <;> rfl

@[simp] theorem wp_ofExcept' (r : Except Fault α) :
    wp (Action.ofExcept r) Q E w ↔
      match r with
      | .ok a => Q a w
      | .error fault => E fault w := by
  unfold wp Action.ofExcept
  cases r <;> rfl

end

namespace Action
variable {α : Type} {P : Except Fault α → Workspace → Prop} {x : Action α} {w : Workspace}

/-- What an action ends in, apart from the workspace. -/
def ending (x : Action α) (w : Workspace) : Except Fault α :=
  match x w with
  | .ok a _ => .ok a
  | .error fault _ => .error fault

/-- The workspace that an action leaves. -/
def after (x : Action α) (w : Workspace) : Workspace :=
  match x w with
  | .ok _ w' => w'
  | .error _ w' => w'

theorem wp_ending : wp x (fun a w' => P (.ok a) w') (fun fault w' => P (.error fault) w') w ↔
    P (ending x w) (after x w) := by
  unfold wp ending after
  cases x w <;> rfl

end Action

/-- However `x` ends on `w`, the tree that it leaves satisfies `P`. -/
def Leaves {α : Type} (P : Tree → Prop) (x : Action α) (w : Workspace) : Prop :=
  wp x (fun _ w' => P w'.tree) (fun _ w' => P w'.tree) w

/-- However `x` ends, a workspace that satisfied `I` still does. -/
structure Keeps {α : Type} (I : Workspace → Prop) (x : Action α) : Prop where
  wp : ∀ w, I w → wp x (fun _ w' => I w') (fun _ w' => I w') w

/-- The property says nothing about the log. -/
def LogFree (I : Workspace → Prop) : Prop :=
  ∀ w log, I w → I { w with log := log }

namespace Keeps
variable {α β : Type} {I : Workspace → Prop}

theorem bind {x : Action α} {f : α → Action β} (hx : Keeps I x) (hf : ∀ a, Keeps I (f a)) :
    Keeps I (x >>= f) :=
  ⟨fun w hw => (wp_bind f).2 (wp_mono (hx.wp w hw) (fun a w' h => (hf a).wp w' h) fun _ _ h => h)⟩

theorem pure (a : α) : Keeps I (pure a) := ⟨fun _ hw => (wp_pure a).2 hw⟩

theorem throw (fault : Fault) : Keeps I (throw fault : Action α) := ⟨fun _ hw => (wp_throw fault).2 hw⟩

theorem modify {f : Workspace → Workspace} (hf : ∀ w, I w → I (f w)) : Keeps I (modify f : Action PUnit) :=
  ⟨fun w hw => (wp_modify f).2 (hf w hw)⟩

theorem say {level : LogLevel} {source message : String} (h : LogFree I) :
    Keeps I (Action.say level source message) := .modify fun w hw => h w _ hw

theorem ofExcept {r : Except Fault α} : Keeps I (Action.ofExcept r) := ⟨fun w hw =>
  (wp_ofExcept' r).2 (by cases r <;> exact hw)⟩

theorem bind_ofExcept {r : Except Fault α} {f : α → Action β} (hf : ∀ a, r = .ok a → Keeps I (f a)) :
    Keeps I (Action.ofExcept r >>= f) := ⟨fun w hw => by
  refine (wp_bind f).2 ((wp_ofExcept' r).2 ?_)
  cases r with
  | ok a => exact (hf a rfl).wp w hw
  | error fault => exact hw⟩

theorem tryCatch {x : Action α} {handle : Fault → Action α} (hx : Keeps I x)
    (hh : ∀ fault, Keeps I (handle fault)) : Keeps I (tryCatch x handle) :=
  ⟨fun w hw => (wp_tryCatch handle).2
    (wp_mono (hx.wp w hw) (fun _ _ h => h) fun fault w' h => (hh fault).wp w' h)⟩

theorem mapM {f : α → Action β} {as : List α} (hf : ∀ a ∈ as, Keeps I (f a)) : Keeps I (as.mapM f) := by
  induction as with
  | nil => rw [List.mapM_nil]; exact pure _
  | cons a as ih =>
    rw [List.mapM_cons]
    exact (hf a (List.mem_cons_self ..)).bind fun _ =>
      (ih fun a ha => hf a (List.mem_cons_of_mem _ ha)).bind fun _ => pure _

end Keeps

/-- The tree and the templates that are remembered are the same in both. -/
def Same (w w' : Workspace) : Prop :=
  w'.tree = w.tree ∧ w'.cache = w.cache

theorem Same.trans {w w' w'' : Workspace} (h : Same w w') (h' : Same w' w'') : Same w w'' :=
  ⟨h'.1.trans h.1, h'.2.trans h.2⟩

/-- `x` ends in the same way in every workspace, and leaves the tree and the templates alone. -/
def Blind {α : Type} (x : Action α) : Prop :=
  (∃ a, ∀ w, ∃ w', x w = .ok a w' ∧ Same w w') ∨ ∃ fault, ∀ w, ∃ w', x w = .error fault w' ∧ Same w w'

namespace Blind
variable {α β : Type}

theorem bind {x : Action α} {f : α → Action β} (hx : Blind x) (hf : ∀ a, Blind (f a)) :
    Blind (x >>= f) := by
  rcases hx with ⟨a, hx⟩ | ⟨fault, hx⟩
  · rcases hf a with ⟨b, ha⟩ | ⟨fault, ha⟩
    · refine .inl ⟨b, fun w => ?_⟩
      obtain ⟨w₁, h₁, hs₁⟩ := hx w
      obtain ⟨w₂, h₂, hs₂⟩ := ha w₁
      exact ⟨w₂, by simp only [Bind.bind, EStateM.bind, h₁, h₂], hs₁.trans hs₂⟩
    · refine .inr ⟨fault, fun w => ?_⟩
      obtain ⟨w₁, h₁, hs₁⟩ := hx w
      obtain ⟨w₂, h₂, hs₂⟩ := ha w₁
      exact ⟨w₂, by simp only [Bind.bind, EStateM.bind, h₁, h₂], hs₁.trans hs₂⟩
  · refine .inr ⟨fault, fun w => ?_⟩
    obtain ⟨w₁, h₁, hs₁⟩ := hx w
    exact ⟨w₁, by simp only [Bind.bind, EStateM.bind, h₁], hs₁⟩

theorem pure (a : α) : Blind (Pure.pure a) := .inl ⟨a, fun w => ⟨w, rfl, rfl, rfl⟩⟩

theorem throw (fault : Fault) : Blind (throw fault : Action α) := .inr ⟨fault, fun w => ⟨w, rfl, rfl, rfl⟩⟩

theorem modify {f : Workspace → Workspace} (hf : ∀ w, Same w (f w)) : Blind (modify f : Action PUnit) :=
  .inl ⟨⟨⟩, fun w => ⟨f w, rfl, hf w⟩⟩

theorem say {level : LogLevel} {source message : String} : Blind (Action.say level source message) :=
  .modify fun _ => ⟨rfl, rfl⟩

theorem ofExcept (r : Except Fault α) : Blind (Action.ofExcept r) := by
  cases r with
  | ok a => exact .inl ⟨a, fun w => ⟨w, rfl, rfl, rfl⟩⟩
  | error fault => exact .inr ⟨fault, fun w => ⟨w, rfl, rfl, rfl⟩⟩

theorem keeps {I : Workspace → Prop} {x : Action α} (hx : Blind x) (hI : ∀ w w', Same w w' → I w → I w') :
    Keeps I x := by
  refine ⟨fun w hw => ?_⟩
  rcases hx with ⟨a, hx⟩ | ⟨fault, hx⟩
  · obtain ⟨w', h, hs⟩ := hx w
    exact (wp_ok h).2 (hI w w' hs hw)
  · obtain ⟨w', h, hs⟩ := hx w
    exact (wp_error h).2 (hI w w' hs hw)

theorem again {x : Action α} (hx : Blind x) {a : α} {w w' : Workspace} (h : x w = .ok a w') :
    Same w w' ∧ ∀ w₂, ∃ w₂', x w₂ = .ok a w₂' ∧ Same w₂ w₂' := by
  rcases hx with ⟨b, hx⟩ | ⟨fault, hx⟩
  · obtain ⟨w₁, h₁, hs⟩ := hx w
    rw [h] at h₁
    cases h₁
    exact ⟨hs, hx⟩
  · obtain ⟨w₁, h₁, -⟩ := hx w
    rw [h] at h₁
    cases h₁

theorem fails_again {x : Action α} (hx : Blind x) {fault : Fault} {w w' : Workspace} (h : x w = .error fault w') :
    Same w w' ∧ ∀ w₂, ∃ w₂', x w₂ = .error fault w₂' ∧ Same w₂ w₂' := by
  rcases hx with ⟨a, hx⟩ | ⟨other, hx⟩
  · obtain ⟨w₁, h₁, -⟩ := hx w
    rw [h] at h₁
    cases h₁
  · obtain ⟨w₁, h₁, hs⟩ := hx w
    rw [h] at h₁
    cases h₁
    exact ⟨hs, hx⟩

end Blind

end Scaffold
