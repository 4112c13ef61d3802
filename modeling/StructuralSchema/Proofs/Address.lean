import Mathlib.Data.List.TakeWhile
import StructuralSchema.Predicate.Address

namespace StructuralSchema

namespace Builtin

section Cut

variable {c : Char} {text before : List Char}

theorem forall_ne_of_not_mem (h : c ∉ text) : ∀ x ∈ text, decide (x ≠ c) = true :=
  fun _ hx => decide_eq_true fun he => h (he ▸ hx)

theorem dropWhile_ne_of_not_mem (h : c ∉ text) : text.dropWhile (· ≠ c) = [] :=
  List.dropWhile_eq_nil_iff.mpr (forall_ne_of_not_mem h)

theorem takeWhile_ne_append (h : c ∉ before) (after : List Char) :
    (before ++ c :: after).takeWhile (· ≠ c) = before := by
  rw [List.takeWhile_append_of_pos (forall_ne_of_not_mem h)]
  simp

theorem dropWhile_ne_append (h : c ∉ before) (after : List Char) :
    (before ++ c :: after).dropWhile (· ≠ c) = c :: after := by
  rw [List.dropWhile_append_of_pos (forall_ne_of_not_mem h)]
  simp

end Cut

theorem holds_iff_accepts (name : String) (check : Builtin) (value : Json) :
    (⟨name, check⟩ : Predicate Builtin).holds value = true ↔ check.accepts value = true := by
  cases h : check.accepts value <;> simp [Predicate.holds, Check.run, h]

theorem isAlpha_iff (c : Char) : c.isAlpha = true ↔ IsLetter c := by
  have hu : c.isUpper = true ↔ 'A' ≤ c ∧ c ≤ 'Z' := decide_eq_true_iff
  have hl : c.isLower = (decide ('a' ≤ c) && decide (c ≤ 'z')) := rfl
  have ha : c.isAlpha = (c.isUpper || c.isLower) := rfl
  simp [ha, hu, hl, IsLetter]

theorem isAlphanum_iff (c : Char) :
    c.isAlphanum = true ↔ IsLetter c ∨ '0' ≤ c ∧ c ≤ '9' := by
  have h : c.isAlphanum = (c.isAlpha || (decide ('0' ≤ c) && decide (c ≤ '9'))) := rfl
  simp [h, isAlpha_iff]

theorem isMailboxChar_iff (c : Char) :
    isMailboxChar c = true ↔ IsWordChar ['.', '_', '%', '+', '-'] c := by
  simp [isMailboxChar, isAlphanum_iff, IsWordChar, or_assoc]

theorem isHostChar_iff (c : Char) : isHostChar c = true ↔ IsWordChar ['.', '-'] c := by
  simp [isHostChar, isAlphanum_iff, IsWordChar, or_assoc]

theorem isDomain_append {letters : List Char} (h : '.' ∉ letters) (host : List Char) :
    isDomain (host ++ '.' :: letters) = true ↔ host ≠ [] ∧ (∀ c ∈ host, isHostChar c = true) ∧
      2 ≤ letters.length ∧ ∀ c ∈ letters, c.isAlpha = true := by
  have hr : '.' ∉ letters.reverse := by simpa using h
  have ht : (host ++ '.' :: letters).reverse = letters.reverse ++ '.' :: host.reverse := by simp
  simp only [isDomain, ht, takeWhile_ne_append hr, dropWhile_ne_append hr]
  simp [and_assoc]

/-- The letters reach back to the last dot. -/
theorem isDomain_iff (text : List Char) : isDomain text = true ↔
    ∃ host letters, text = host ++ '.' :: letters ∧ host ≠ [] ∧
      (∀ c ∈ host, isHostChar c = true) ∧ 2 ≤ letters.length ∧ ∀ c ∈ letters, c.isAlpha = true := by
  constructor
  · intro h
    have hm : '.' ∈ text.reverse := by
      by_contra hn
      simp only [isDomain, dropWhile_ne_of_not_mem hn, Bool.false_eq_true] at h
    obtain ⟨letters, host, ht, hn⟩ := List.eq_append_cons_of_mem hm
    obtain rfl : text = host.reverse ++ '.' :: letters.reverse := by
      rw [← List.reverse_reverse text, ht]
      simp
    exact ⟨_, _, rfl, (isDomain_append (by simpa using hn) _).mp h⟩
  · rintro ⟨host, letters, rfl, h⟩
    have hn : '.' ∉ letters := fun hm => absurd (h.2.2.2 '.' hm) (by decide)
    exact (isDomain_append hn host).mpr h

theorem isEmail_append {mailbox : List Char} (h : '@' ∉ mailbox) (domain : List Char) :
    isEmail (mailbox ++ '@' :: domain) = true ↔
      mailbox ≠ [] ∧ (∀ c ∈ mailbox, isMailboxChar c = true) ∧ isDomain domain = true := by
  simp only [isEmail, takeWhile_ne_append h, dropWhile_ne_append h]
  simp [and_assoc]

/-- The mailbox reaches to the first `@`. -/
theorem isEmail_iff (text : List Char) : isEmail text = true ↔
    ∃ mailbox domain, text = mailbox ++ '@' :: domain ∧
      mailbox ≠ [] ∧ (∀ c ∈ mailbox, isMailboxChar c = true) ∧ isDomain domain = true := by
  constructor
  · intro h
    have hm : '@' ∈ text := by
      by_contra hn
      simp only [isEmail, dropWhile_ne_of_not_mem hn, Bool.false_eq_true] at h
    obtain ⟨mailbox, domain, rfl, hn⟩ := List.eq_append_cons_of_mem hm
    exact ⟨mailbox, domain, rfl, (isEmail_append hn domain).mp h⟩
  · rintro ⟨mailbox, domain, rfl, h⟩
    have hn : '@' ∉ mailbox := fun hm => absurd (h.2.1 '@' hm) (by decide)
    exact (isEmail_append hn domain).mpr h

theorem isEmail_iff_isAddress (text : List Char) : isEmail text = true ↔ IsAddress text := by
  simp only [IsAddress, ← isMailboxChar_iff, ← isHostChar_iff, ← isAlpha_iff, isEmail_iff,
    isDomain_iff]
  constructor
  · rintro ⟨mailbox, _, rfl, hm, hc, host, letters, rfl, h⟩
    exact ⟨mailbox, host, letters, by simp, hm, hc, h⟩
  · rintro ⟨mailbox, host, letters, rfl, hm, hc, h⟩
    exact ⟨mailbox, host ++ '.' :: letters, by simp, hm, hc, host, letters, rfl, h⟩

end Builtin

open Builtin

/-- The check for mail addresses that is always at hand passes just the texts that are addresses. -/
theorem exists_email_holds_iff (value : Json) :
    ∃ email, (Registry.builtin id).get? "email" = some email ∧
      (email.holds value = true ↔ ∃ text, value = .string text ∧ IsAddress text.toList) := by
  refine ⟨⟨"email", .email⟩, by rfl, ?_⟩
  cases value with
  | string text => simp [holds_iff_accepts, accepts, ← isEmail_iff_isAddress]
  | _ => simp [holds_iff_accepts, accepts]

example : isEmail "a.b%c@mail.example.org".toList = true ∧
    isEmail "a.b%c@mail.example.org\n".toList = false := by
  decide

end StructuralSchema
