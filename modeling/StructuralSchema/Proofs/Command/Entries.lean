import StructuralSchema.Command.Run

namespace StructuralSchema.Report

open List

structure Entry where
  label : String
  reason : Option String

/-- What a terminal takes as the end of a colour. -/
def plain : List Char := "\x1b[0m".toList

/-- The first text is shown as the second in the colour with the given code. Wherever the text
itself ends the colour, the rest of it begins the colour again. -/
inductive Coloured (code : List Char) : List Char → List Char → Prop where
  | last {part : List Char} (h : ¬plain <:+: part) : Coloured code part (code ++ part ++ plain)
  | more {part rest shown : List Char} (h : ¬plain <:+: part) (hr : Coloured code rest shown) :
      Coloured code (part ++ plain ++ rest) (code ++ part ++ plain ++ shown)

def Painted (colours : Bool) (code text shown : String) : Prop :=
  if colours then Coloured code.toList text.toList shown.toList else shown = text

/-- An instance that passes has a line with its label alone, and any other one has the reason in red
behind its label. -/
inductive Entry.Shows (colours : Bool) : Entry → String → Prop where
  | pass {label mark : String} (hm : Painted colours "\x1b[32m" "✅" mark) :
      Shows colours ⟨label, none⟩ (mark ++ " " ++ label ++ "\n")
  | fail {label reason mark why : String} (hm : Painted colours "\x1b[31m" "❌" mark)
      (hw : Painted colours "\x1b[31m" reason why) :
      Shows colours ⟨label, some reason⟩ (mark ++ " " ++ label ++ ": " ++ why ++ "\n")

variable {code part text rest shown : List Char}

theorem renew_plain_append : renew code (plain ++ rest) = plain ++ code ++ renew code rest := by
  rfl

theorem renew_cons {c : Char} (h : ¬plain <+: c :: text) :
    renew code (c :: text) = c :: renew code text := by
  apply renew.eq_2
  rintro after rfl rfl
  exact h (prefix_append plain after)

theorem renew_eq_self (h : ¬plain <:+: text) : renew code text = text := by
  induction text with
  | nil => rfl
  | cons c text ih =>
    obtain ⟨hp, hi⟩ := not_or.mp (mt infix_cons_iff.mpr h)
    rw [renew_cons hp, ih hi]

/-- The end of a colour does not overlap with itself: it begins with a character that does not come
again in it. -/
theorem not_prefix_append_plain (h : ¬plain <+: part) (hp : part ≠ []) (rest : List Char) :
    ¬plain <+: part ++ plain ++ rest := by
  match part with
  | [] => contradiction
  | [a] | [a, b] | [a, b, c] => simp [plain]
  | a :: b :: c :: d :: part => simpa [plain] using h

theorem renew_append (h : ¬plain <:+: part) :
    renew code (part ++ plain ++ rest) = part ++ plain ++ code ++ renew code rest := by
  induction part with
  | nil => exact renew_plain_append
  | cons c part ih =>
    obtain ⟨hp, hi⟩ := not_or.mp (mt infix_cons_iff.mpr h)
    have hn := not_prefix_append_plain hp (cons_ne_nil c part) rest
    simp only [cons_append] at hn ⊢
    rw [renew_cons hn, ih hi]

theorem exists_first_plain (h : plain <:+: text) :
    ∃ part rest, ¬plain <:+: part ∧ text = part ++ plain ++ rest := by
  induction text with
  | nil => cases infix_nil.mp h
  | cons c text ih =>
    by_cases hp : plain <+: c :: text
    · obtain ⟨rest, hr⟩ := hp
      exact ⟨[], rest, by decide, hr.symm⟩
    · obtain ⟨part, rest, hn, rfl⟩ := ih ((infix_cons_iff.mp h).resolve_left hp)
      refine ⟨c :: part, rest, fun hi => ?_, rfl⟩
      have hc : plain <+: c :: part := (infix_cons_iff.mp hi).resolve_right hn
      exact hp (hc.trans ⟨plain ++ rest, by simp⟩)

theorem coloured_renew (code text : List Char) :
    Coloured code text (code ++ renew code text ++ plain) := by
  by_cases h : plain <:+: text
  · obtain ⟨part, rest, hn, rfl⟩ := exists_first_plain h
    have hs := Coloured.more hn (coloured_renew code rest)
    rw [renew_append hn]
    simpa only [append_assoc] using hs
  · rw [renew_eq_self h]
    exact .last h
termination_by text.length
decreasing_by
  subst_vars
  simp [plain]
  omega

theorem coloured_iff : Coloured code text shown ↔ shown = code ++ renew code text ++ plain := by
  constructor
  · intro h
    induction h with
    | last h => rw [renew_eq_self h]
    | more h _ ih =>
      rw [renew_append h, ih]
      simp only [append_assoc]
  · rintro rfl
    exact coloured_renew code text

theorem painted_iff {colours : Bool} (colour : Colour) {text shown : String} :
    Painted colours colour.code text shown ↔ shown = paint colours colour text := by
  cases colours with
  | false => rfl
  | true => simp [Painted, paint, coloured_iff, ← String.toList_inj, plain, reset]

theorem shows_iff {colours : Bool} {entry : Entry} {text : String} :
    entry.Shows colours text ↔ text = line colours entry.label entry.reason := by
  constructor
  · intro h
    cases h with
    | pass hm => rw [(painted_iff .green).mp hm, line]
    | fail hm hw =>
      rw [(painted_iff .red).mp hm, (painted_iff .red).mp hw, line]
  · rintro rfl
    obtain ⟨label, _ | reason⟩ := entry
    · exact .pass ((painted_iff .green).mpr rfl)
    · exact .fail ((painted_iff .red).mpr rfl) ((painted_iff .red).mpr rfl)

end StructuralSchema.Report
