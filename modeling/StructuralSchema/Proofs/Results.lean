import Mathlib.Data.List.Forall2
import StructuralSchema.Instance

namespace StructuralSchema

variable {ε ε' α β : Type}

theorem bind_eq_ok_iff {first : Except ε α} {next : α → Except ε β} {b : β} :
    (first >>= next) = .ok b ↔ ∃ a, first = .ok a ∧ next a = .ok b := by
  cases first <;> simp [bind, Except.bind]

theorem bind_eq_error_iff {first : Except ε α} {next : α → Except ε β} {e : ε} :
    (first >>= next) = .error e ↔ first = .error e ∨ ∃ a, first = .ok a ∧ next a = .error e := by
  cases first <;> simp [bind, Except.bind]

/-- A computation goes wrong as another one does if it begins alike and goes on to fail wherever the
other does. -/
theorem bind_eq_error_of_imp {first : Except ε α} {next other : α → Except ε β} {e : ε}
    (hn : ∀ a, next a = .error e → other a = .error e) (h : (first >>= next) = .error e) :
    (first >>= other) = .error e := by
  cases first with
  | error fault => exact h
  | ok a => exact hn a h

theorem check_then_eq_ok_iff {first : Except ε Unit} {second : Unit → Except ε β} {b : β} :
    (first >>= second) = .ok b ↔ first = .ok () ∧ second () = .ok b := by
  cases first <;> simp [bind, Except.bind]

theorem mapError_eq_ok_iff {f : ε → ε'} {result : Except ε α} {a : α} :
    result.mapError f = .ok a ↔ result = .ok a := by
  cases result with
  | error e => exact ⟨nofun, nofun⟩
  | ok b =>
    have h : Except.mapError f (.ok b : Except ε α) = .ok b := rfl
    rw [h, Except.ok.injEq, Except.ok.injEq]

theorem pure_eq_ok_iff {a b : α} : (pure a : Except ε α) = .ok b ↔ a = b := by
  simp [pure, Except.pure]

theorem mapM_eq_ok_iff {f : α → Except ε β} {xs : List α} {ys : List β} :
    xs.mapM f = .ok ys ↔ List.Forall₂ (fun x y => f x = .ok y) xs ys := by
  induction xs generalizing ys with
  | nil => rw [List.mapM_nil, pure_eq_ok_iff, List.forall₂_nil_left_iff, eq_comm]
  | cons x xs ih =>
    rw [List.mapM_cons]
    simp only [bind_eq_ok_iff, pure_eq_ok_iff, ih, List.forall₂_cons_left_iff]
    constructor
    · rintro ⟨y, hy, rest, hr, rfl⟩
      exact ⟨y, rest, hy, hr, rfl⟩
    · rintro ⟨y, rest, hy, hr, rfl⟩
      exact ⟨y, hy, rest, hr, rfl⟩

theorem Json.members?_eq_ok_iff {root : Json} {members : Fields Json} :
    root.members? = .ok members ↔ root = .object members := by
  cases root <;> simp [members?]

theorem Instance.load_text_eq_ok_iff {source : String} {root : Json} :
    (Instance.text source).load = .ok root ↔ Json.ofText source = .ok root :=
  mapError_eq_ok_iff

end StructuralSchema
