import StructuralSchema.Proofs.Json.Lexemes
import StructuralSchema.Proofs.Results

namespace StructuralSchema.Json

namespace Numeral

/-- The digits that were gathered, where the text goes on with `more`. -/
def Gathered.before (digits : Gathered) (more : List Char) : Gathered :=
  { digits with rest := digits.rest ++ more }

def Scan.before (scan : Scan) (more : List Char) : Scan :=
  { scan with rest := scan.rest ++ more }

variable {text left : List Char} {n : Number} {negative : Bool}

theorem startsWith_append {p : Char → Bool} (h : text ≠ []) (more : List Char) :
    startsWith p (text ++ more) = startsWith p text := by
  cases text with
  | nil => contradiction
  | cons c text => rfl

theorem gather_before {limit value used : Nat} (h : (gather limit value used text).rest ≠ [])
    (more : List Char) :
    gather limit value used (text ++ more) = (gather limit value used text).before more := by
  fun_induction gather limit value used text with
  | case1 => contradiction
  | case2 value used c rest hc ih => rw [List.cons_append, gather, if_pos hc, ih h]
  | case3 value used c rest hc => rw [List.cons_append, gather, if_neg hc]; rfl

theorem ne_nil_of_gather {limit value used : Nat} (h : (gather limit value used text).rest ≠ []) :
    text ≠ [] := by
  rintro rfl
  exact h rfl

theorem skipDigits_append (h : skipDigits text ≠ []) (more : List Char) :
    skipDigits (text ++ more) = skipDigits text ++ more := by
  have he : (text.dropWhile Char.isDigit).isEmpty = false := by
    rwa [List.isEmpty_eq_false_iff]
  rw [skipDigits, List.dropWhile_append, he]
  rfl

theorem ne_nil_of_skipDigits (h : skipDigits text ≠ []) : text ≠ [] := by
  rintro rfl
  exact h rfl

theorem takeWhile_isDigit_append (h : skipDigits text ≠ []) (more : List Char) :
    (text ++ more).takeWhile Char.isDigit = text.takeWhile Char.isDigit := by
  have hs := skipDigits_append h more
  have hl : (text ++ more).takeWhile Char.isDigit ++ skipDigits (text ++ more) = text ++ more :=
    List.takeWhile_append_dropWhile
  have ht : text.takeWhile Char.isDigit ++ skipDigits text = text :=
    List.takeWhile_append_dropWhile
  rw [hs] at hl
  apply (List.append_left_inj (skipDigits text ++ more)).mp
  rw [hl, ← List.append_assoc, ht]

theorem whole_before {scan : Scan} (h : whole text = .ok scan) (hl : scan.rest ≠ [])
    (more : List Char) : whole (text ++ more) = .ok (scan.before more) := by
  cases text with
  | nil => contradiction
  | cons c rest =>
    rw [whole] at h
    rw [List.cons_append, whole]
    split at h
    · rename_i hz
      split at h
      · contradiction
      · rename_i hd
        cases h
        rw [if_pos hz, startsWith_append hl, if_neg hd]
        rfl
    · rename_i hz
      split at h
      · rename_i hc
        cases h
        have hg : (gather significandLimit (digitValue c) 0 rest).rest ≠ [] :=
          ne_nil_of_skipDigits hl
        rw [if_neg hz, if_pos hc, gather_before hg]
        simp only [Gathered.before, takeWhile_isDigit_append hl, skipDigits_append hl]
        rfl
      · contradiction

theorem fraction_before {scan scan' : Scan} (h : fraction scan = .ok scan') (hl : scan'.rest ≠ [])
    (more : List Char) : fraction (scan.before more) = .ok (scan'.before more) := by
  obtain ⟨significand, exponent, text⟩ := scan
  rw [fraction] at h
  split at h
  · rename_i rest hr
    obtain rfl : text = '.' :: rest := hr
    split at h
    · rename_i hd
      cases h
      have hg : (gather significandLimit significand 0 rest).rest ≠ [] := ne_nil_of_skipDigits hl
      have hr := ne_nil_of_gather hg
      simp only [fraction, Scan.before, List.cons_append, startsWith_append hr, hd, if_true,
        gather_before hg, Gathered.before, skipDigits_append hl]
    · split at h <;> contradiction
  · rename_i hp
    cases h
    obtain ⟨c, rest, rfl⟩ := List.exists_cons_of_ne_nil hl
    have hc : c ≠ '.' := by
      rintro rfl
      exact hp rest rfl
    simp [fraction, Scan.before, hc]

theorem finish_before {scan : Scan} (h : finish negative scan = .ok (n, left)) (more : List Char) :
    finish negative (scan.before more) = .ok (n, left ++ more) := by
  rw [finish] at h
  split at h
  · rename_i x hx
    cases h
    simp only [finish, Scan.before, hx]
  · contradiction

theorem powerDigits_before {down : Bool} {scan : Scan}
    (h : powerDigits negative down scan text = .ok (n, left)) (hl : left ≠ []) (more : List Char) :
    powerDigits negative down (scan.before more) (text ++ more) = .ok (n, left ++ more) := by
  cases text with
  | nil => contradiction
  | cons c rest =>
    rw [powerDigits] at h
    split at h
    · rename_i hc
      rw [List.cons_append, powerDigits, if_pos hc, ← List.cons_append]
      dsimp only at h
      split at h
      · rename_i hs
        split at h
        · contradiction
        · rename_i hz
          cases h
          have hg := ne_nil_of_skipDigits hl
          rw [gather_before hg]
          simp only [Gathered.before, startsWith_append hg, hs, if_true, Scan.before, if_neg hz,
            skipDigits_append hl]
      · rename_i hs
        have hf := finish_before h more
        rw [length_rest_of_finish h] at hl
        rw [gather_before hl]
        simp only [Gathered.before, startsWith_append hl, if_neg hs]
        exact hf
    · contradiction

theorem power_unsigned {c : Char} (hp : c ≠ '+') (hm : c ≠ '-') (scan : Scan) (rest : List Char) :
    power negative scan (c :: rest) = powerDigits negative false scan (c :: rest) := by
  unfold power
  split
  · rename_i he
    cases he
    contradiction
  · rename_i he
    cases he
    contradiction
  · rfl

theorem power_before {scan : Scan} (h : power negative scan text = .ok (n, left)) (hl : left ≠ [])
    (more : List Char) :
    power negative (scan.before more) (text ++ more) = .ok (n, left ++ more) := by
  cases text with
  | nil => contradiction
  | cons c rest =>
    -- the first character says which branch is taken, before and after
    by_cases hp : c = '+'
    · subst hp
      exact powerDigits_before h hl more
    by_cases hm : c = '-'
    · subst hm
      exact powerDigits_before h hl more
    rw [power_unsigned hp hm] at h
    rw [List.cons_append, power_unsigned hp hm]
    exact powerDigits_before h hl more

theorem float_before {scan : Scan} (h : float negative scan = .ok (n, left)) (hl : left ≠ [])
    (more : List Char) : float negative (scan.before more) = .ok (n, left ++ more) := by
  obtain ⟨scan', hs, hf⟩ := bind_eq_ok_iff.mp h
  split at hf
  · -- the text ends with the fraction
    rename_i hr
    rw [length_rest_of_finish hf] at hl
    contradiction
  · rename_i c rest hr
    have hne : scan'.rest ≠ [] := hr ▸ List.cons_ne_nil c rest
    have hm : (scan'.before more).rest = c :: (rest ++ more) := by
      rw [Scan.before, hr, List.cons_append]
    apply bind_eq_ok_iff.mpr ⟨scan'.before more, fraction_before hs hne more, ?_⟩
    simp only [hm]
    split at hf
    · rename_i hc
      rw [if_pos hc]
      exact power_before hf hl more
    · rename_i hc
      rw [if_neg hc]
      exact finish_before hf more

theorem ne_nil_of_float {scan : Scan} (h : float negative scan = .ok (n, left)) (hl : left ≠ []) :
    scan.rest ≠ [] := by
  have hlength := length_rest_of_float h
  rw [← List.length_pos_iff] at hl ⊢
  omega

theorem unsigned_append (h : unsigned negative text = .ok (n, left)) (hl : left ≠ [])
    (more : List Char) : unsigned negative (text ++ more) = .ok (n, left ++ more) := by
  obtain ⟨scan, hw, hn⟩ := bind_eq_ok_iff.mp h
  split at hn
  · rename_i hc
    have hrest : left = scan.rest := by
      split at hn
      · cases hn
        rfl
      · exact length_rest_of_finish hn
    subst hrest
    apply bind_eq_ok_iff.mpr ⟨scan.before more, whole_before hw hl more, ?_⟩
    simp only [Scan.before, startsWith_append hl, if_pos hc]
    split at hn
    · cases hn
      rfl
    · exact finish_before hn more
  · rename_i hc
    have hne := ne_nil_of_float hn hl
    apply bind_eq_ok_iff.mpr ⟨scan.before more, whole_before hw hne more, ?_⟩
    simp only [Scan.before, startsWith_append hne, if_neg hc]
    exact float_before hn hl more

theorem read_append (h : read text = .ok (n, left)) (hl : left ≠ []) (more : List Char) :
    read (text ++ more) = .ok (n, left ++ more) := by
  cases text with
  | nil => contradiction
  | cons c rest =>
    by_cases hm : c = '-'
    · subst hm
      exact unsigned_append h hl more
    · rw [read_of_ne_minus hm] at h
      rw [List.cons_append, read_of_ne_minus hm]
      exact unsigned_append h hl more

end Numeral

theorem word_append {value read : Json} {letters text left : List Char}
    (h : word value letters text = .ok (read, left)) (more : List Char) :
    word value letters (text ++ more) = .ok (read, left ++ more) := by
  fun_induction word value letters text with
  | case1 rest =>
    cases h
    rw [word]
  | case2 => contradiction
  | case3 letters c rest ih => rw [List.cons_append, word, if_pos rfl, ih h]
  | case4 => contradiction

theorem Quoted.decodeFrom_append {mode : Quoted.Mode} {done text read left : List Char}
    (h : Quoted.decodeFrom mode done text = .ok (read, left)) (more : List Char) :
    Quoted.decodeFrom mode done (text ++ more) = .ok (read, left ++ more) := by
  fun_induction Quoted.decodeFrom mode done text with
  | case12 mode done rest high wanted read digit hd hw mode' done' hu ih =>
    simp only [List.cons_append, Quoted.decodeFrom, hd, if_neg hw, hu]
    exact ih h
  | _ => simp_all [Quoted.decodeFrom]

def Token.Single : Token → Prop
  | .scalar _ => False
  | .string _ => False
  | .unknown => False
  | _ => True

/-- Nothing that follows belongs to a token that was read, since it ends by itself or something
else has begun after it. -/
def Ended (read : Token × List Char) : Prop :=
  read.1.Single ∨ read.2 ≠ []

theorem not_ended_of_break {token : Token} (h : ¬token.Single) : ¬Ended (token, []) := by
  simp [Ended, h]

theorem scalarToken_append {value : Json} {letters text : List Char}
    (h : Ended (scalarToken (word value letters text))) (more : List Char) :
    scalarToken (word value letters (text ++ more)) =
      Prod.map id (· ++ more) (scalarToken (word value letters text)) := by
  cases hw : word value letters text with
  | error stop =>
    rw [hw] at h
    exact absurd h (not_ended_of_break id)
  | ok read =>
    rw [word_append hw]
    rfl

theorem stringToken_append {text : List Char} (h : Ended (stringToken (Quoted.decode text)))
    (more : List Char) :
    stringToken (Quoted.decode (text ++ more)) =
      Prod.map id (· ++ more) (stringToken (Quoted.decode text)) := by
  cases hd : Quoted.decode text with
  | error stop =>
    rw [hd] at h
    exact absurd h (not_ended_of_break id)
  | ok read =>
    rw [Quoted.decode, Quoted.decodeFrom_append hd]
    rfl

theorem numberToken_append {text : List Char} (h : Ended (numberToken (Numeral.read text)))
    (more : List Char) :
    numberToken (Numeral.read (text ++ more)) =
      Prod.map id (· ++ more) (numberToken (Numeral.read text)) := by
  cases hn : Numeral.read text with
  | error stop =>
    rw [hn] at h
    exact absurd h (not_ended_of_break id)
  | ok read =>
    rw [hn] at h
    rw [Numeral.read_append hn (h.resolve_left id)]
    rfl

theorem nextToken_append {c : Char} {text : List Char} (h : Ended (nextToken c text))
    (more : List Char) :
    nextToken c (text ++ more) = Prod.map id (· ++ more) (nextToken c text) := by
  unfold nextToken at h ⊢
  split
  · rfl
  · rename_i value letters hp hw
    simp only [hp, hw] at h
    exact scalarToken_append h more
  · rename_i hp hw
    simp only [hp, hw] at h
    split
    · rename_i hq
      rw [if_pos hq] at h
      exact stringToken_append h more
    · rename_i hq
      rw [if_neg hq] at h
      split
      · rename_i hn
        rw [if_pos hn] at h
        exact numberToken_append h more
      · rename_i hn
        rw [if_neg hn] at h
        exact absurd h (not_ended_of_break id)

/-- The lexemes of a text and those of a longer text that begins with it. The tokens are the same,
but for the last one if more than one character may make it up. -/
inductive Continues : List Lexeme → List Lexeme → Prop where
  | nil (longer : List Lexeme) : Continues [] longer
  | last {lexeme : Lexeme} (h : ¬lexeme.token.Single) (longer : List Lexeme) :
    Continues [lexeme] longer
  | cons {first other : Lexeme} {text longer : List Lexeme} (ht : first.token = other.token)
    (h : Continues text longer) : Continues (first :: text) (other :: longer)

theorem lexemes_nil : lexemes [] = [] := by
  rw [lexemes]

/-- By induction along the lexemes of the shorter text. A token that has not ended is the last. -/
theorem continues_lexemes (text more : List Char) :
    Continues (lexemes text) (lexemes (text ++ more)) := by
  fun_induction lexemes text with
  | case1 => exact .nil _
  | case2 c rest hb ih => rwa [List.cons_append, lexemes_blank hb]
  | case3 c rest hb ih =>
    rw [Bool.not_eq_true] at hb
    by_cases he : Ended (nextToken c rest)
    · rw [List.cons_append, lexemes_cons hb (nextToken_append he more)]
      exact .cons rfl ih
    · simp only [Ended, not_or, not_not] at he
      rw [he.2, lexemes_nil]
      exact .last he.1 _

end StructuralSchema.Json
