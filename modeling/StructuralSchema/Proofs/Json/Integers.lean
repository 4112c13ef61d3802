import StructuralSchema.Json.Layout
import StructuralSchema.Json.Numeral

namespace StructuralSchema.Json.Numeral

/-- Nothing in the text goes on with a number that ends before it. -/
def Closed (rest : List Char) : Prop :=
  startsWith (fun c => c.isDigit || c = '.' || isPowerMark c) rest = false

theorem closed_nil : Closed [] :=
  rfl

theorem Closed.isDigit {rest : List Char} (h : Closed rest) :
    startsWith Char.isDigit rest = false := by
  cases rest with
  | nil => rfl
  | cons c rest =>
    simp only [Closed, startsWith, Bool.or_eq_false_iff] at h
    exact h.1.1

theorem Closed.point {rest : List Char} (h : Closed rest) :
    startsWith (fun c => c = '.' || isPowerMark c) rest = false := by
  cases rest with
  | nil => rfl
  | cons c rest =>
    simp only [Closed, startsWith, Bool.or_eq_false_iff] at h
    simp only [startsWith, Bool.or_eq_false_iff]
    exact ⟨h.1.2, h.2⟩

theorem ofDigitChars_cons_eq (c : Char) (digits : List Char) (value : Nat) :
    Nat.ofDigitChars 10 (c :: digits) value =
      Nat.ofDigitChars 10 digits (value * 10 + digitValue c) := by
  rw [Nat.ofDigitChars_cons, Nat.mul_comm]
  rfl

theorem le_ofDigitChars (digits : List Char) (value : Nat) :
    value ≤ Nat.ofDigitChars 10 digits value := by
  induction digits generalizing value with
  | nil => simp
  | cons c digits ih =>
    rw [ofDigitChars_cons_eq]
    have h := ih (value * 10 + digitValue c)
    omega

theorem gather_append {limit : Nat} {digits rest : List Char} (hd : ∀ c ∈ digits, c.isDigit)
    (hr : startsWith Char.isDigit rest = false) (value used : Nat)
    (hl : Nat.ofDigitChars 10 digits value < limit) :
    gather limit value used (digits ++ rest) =
      ⟨Nat.ofDigitChars 10 digits value, used + digits.length, rest⟩ := by
  induction digits generalizing value used with
  | nil =>
    cases rest with
    | nil => simp [gather]
    | cons c rest =>
      have hc : c.isDigit = false := hr
      simp [gather, hc]
  | cons c digits ih =>
    obtain ⟨hc, hds⟩ := List.forall_mem_cons.mp hd
    rw [ofDigitChars_cons_eq] at hl ⊢
    have hv := le_ofDigitChars digits (value * 10 + digitValue c)
    rw [List.cons_append, gather, if_pos ⟨hc, by omega⟩, ih hds _ _ hl, List.length_cons,
      Nat.add_assoc, Nat.add_comm 1]

theorem takeWhile_isDigit {rest : List Char} (h : startsWith Char.isDigit rest = false) :
    rest.takeWhile Char.isDigit = [] := by
  cases rest with
  | nil => rfl
  | cons c rest =>
    have hc : c.isDigit = false := h
    simp [hc]

theorem skipDigits_eq {rest : List Char} (h : startsWith Char.isDigit rest = false) :
    skipDigits rest = rest := by
  cases rest with
  | nil => rfl
  | cons c rest =>
    have hc : c.isDigit = false := h
    simp [skipDigits, hc]

theorem exists_toDigits_eq_cons (n : Nat) :
    ∃ c digits, Nat.toDigits 10 n = c :: digits ∧ c.isDigit := by
  obtain ⟨c, digits, hd⟩ := List.exists_cons_of_ne_nil (Nat.toDigits_ne_nil (n := n) (b := 10))
  refine ⟨c, digits, hd, ?_⟩
  apply Nat.isDigit_of_mem_toDigits (b := 10) (n := n) (by decide) (by decide)
  rw [hd]
  exact List.mem_cons_self

theorem exists_toDigits_eq_cons_of_pos {n : Nat} (h : 0 < n) :
    ∃ c digits, Nat.toDigits 10 n = c :: digits ∧ c ≠ '0' := by
  induction n using Nat.strongRecOn with
  | ind n ih =>
    rw [Nat.toDigits_eq_if (by decide)]
    split
    · refine ⟨n.digitChar, [], rfl, ?_⟩
      rw [ne_eq, Nat.digitChar_eq_zero]
      omega
    · obtain ⟨c, digits, hc, hz⟩ := ih (n / 10) (by omega) (by omega)
      exact ⟨c, digits ++ [(n % 10).digitChar], by rw [hc, List.cons_append], hz⟩

theorem whole_toDigits {n : Nat} (hn : n < significandLimit) {rest : List Char}
    (hr : startsWith Char.isDigit rest = false) :
    whole (Nat.toDigits 10 n ++ rest) = .ok ⟨n, 0, rest⟩ := by
  obtain rfl | hp := Nat.eq_zero_or_pos n
  · simp [whole, hr]
  · obtain ⟨c, digits, hd, hz⟩ := exists_toDigits_eq_cons_of_pos hp
    have hall : ∀ d ∈ c :: digits, d.isDigit := fun d hm =>
      Nat.isDigit_of_mem_toDigits (by decide) (by decide) (hd ▸ hm)
    obtain ⟨hc, hds⟩ := List.forall_mem_cons.mp hall
    have hv : Nat.ofDigitChars 10 digits (digitValue c) = n := by
      rw [← Nat.ofDigitChars_ten_toDigits (n := n), hd, ofDigitChars_cons_eq, Nat.zero_mul,
        Nat.zero_add]
    have hg := gather_append hds hr (digitValue c) 0 (hv ▸ hn)
    rw [hd, List.cons_append, whole, if_neg hz, if_pos hc, hg, hv]
    simp [takeWhile_isDigit hr, skipDigits_eq hr]

theorem unsigned_toDigits {negative : Bool} {n : Nat} {value : Int}
    (fits : -2 ^ 63 ≤ value ∧ value < 2 ^ 64) (hv : value = if negative then -(n : Int) else n)
    (hz : negative → n ≠ 0) {rest : List Char} (hr : Closed rest) :
    unsigned negative (Nat.toDigits 10 n ++ rest) = .ok (.int value fits, rest) := by
  have hn : n < significandLimit := by
    unfold significandLimit
    cases negative <;> simp at hv <;> omega
  subst hv
  have hi : integer? negative n = some (.int _ fits) := dif_pos ⟨hz, fits⟩
  rw [unsigned, whole_toDigits hn hr.isDigit]
  simp [bind, Except.bind, hr.point, hi]

theorem read_of_ne_minus {c : Char} (h : c ≠ '-') (rest : List Char) :
    read (c :: rest) = unsigned false (c :: rest) := by
  unfold read
  split
  · rename_i heq
    cases heq
    contradiction
  · rfl

theorem read_chars (value : Int) (fits : -2 ^ 63 ≤ value ∧ value < 2 ^ 64) {rest : List Char}
    (hr : Closed rest) :
    read ((Number.int value fits).chars ++ rest) = .ok (.int value fits, rest) := by
  rw [Number.chars]
  split
  · rename_i hneg
    rw [List.cons_append, read]
    apply unsigned_toDigits fits _ _ hr
    · rw [if_pos rfl]
      omega
    · intro _
      omega
  · rename_i hpos
    obtain ⟨c, digits, hd, hc⟩ := exists_toDigits_eq_cons value.natAbs
    have hm : c ≠ '-' := by
      rintro rfl
      cases hc
    have hu := read_of_ne_minus hm (digits ++ rest)
    rw [← List.cons_append, ← hd] at hu
    rw [hu]
    apply unsigned_toDigits fits _ _ hr
    · rw [if_neg Bool.false_ne_true]
      omega
    · simp

end StructuralSchema.Json.Numeral
