import StructuralSchema.Proofs.Json.Lexemes
import StructuralSchema.Proofs.Trees

namespace StructuralSchema.Json

open Numeral

structure Layout.Blank (layout : Layout) : Prop where
  line : ∀ depth, ∀ c ∈ layout.line depth, isBlank c = true
  afterColon : ∀ c ∈ layout.afterColon, isBlank c = true

theorem Layout.blank_compact : Layout.compact.Blank :=
  ⟨by simp [compact], by simp [compact]⟩

theorem Layout.blank_indented : Layout.indented.Blank := by
  constructor
  · intro depth c hc
    simp only [indented, List.mem_cons, List.mem_replicate] at hc
    obtain rfl | ⟨_, rfl⟩ := hc <;> rfl
  · simp [indented, isBlank]

namespace Reading

/-- One run goes on as the other if so many levels are not too many, and breaks off otherwise. -/
structure GoesOn (levels : Nat) (run next : Except Stop (Json × List Lexeme)) : Prop where
  fits : levels ≤ greatestDepth → run = next
  tooDeep : greatestDepth < levels → ∃ stop, run = .error stop ∧ stop.reason = .tooDeep

theorem GoesOn.of_eq {levels : Nat} {run next : Except Stop (Json × List Lexeme)}
    (hl : levels ≤ greatestDepth) (h : run = next) : GoesOn levels run next :=
  ⟨fun _ => h, fun ht => absurd hl (Nat.not_le.mpr ht)⟩

theorem GoesOn.trans {levels more : Nat} {run middle next : Except Stop (Json × List Lexeme)}
    (h : GoesOn levels run middle) (h' : levels ≤ greatestDepth → GoesOn more middle next) :
    GoesOn (max levels more) run next := by
  by_cases hl : levels ≤ greatestDepth
  · rw [h.fits hl]
    have hm := h' hl
    exact ⟨fun hf => hm.fits (by omega), fun ht => hm.tooDeep (by omega)⟩
  · exact ⟨fun hf => absurd hf (by omega), fun _ => h.tooDeep (by omega)⟩

theorem run_cons {reading next : Reading} {lexeme : Lexeme}
    (hr : ∀ value, reading ≠ ⟨[], .next value⟩) (hs : reading.step lexeme = .ok next)
    (rest : List Lexeme) : reading.run (lexeme :: rest) = next.run rest := by
  rw [run, hs]
  exact hr

theorem run_cons_of_error {reading : Reading} {lexeme : Lexeme} {stop : Stop}
    (hr : ∀ value, reading ≠ ⟨[], .next value⟩) (hs : reading.step lexeme = .error stop)
    (rest : List Lexeme) : reading.run (lexeme :: rest) = .error stop := by
  rw [run, hs]
  exact hr

/-- Where a value or the first item of an array is wanted, whatever does not end the array begins
a value. -/
theorem step_eq_begin {frames : List Frame} {wanted : Wanted} {lexeme : Lexeme}
    (hw : wanted = .value ∨ wanted = .firstItem) (ht : lexeme.token ≠ .closeBracket) :
    step ⟨frames, wanted⟩ lexeme = begin frames lexeme := by
  obtain ⟨token, start, rest⟩ := lexeme
  obtain rfl | rfl := hw <;> rcases frames with _ | ⟨_ | _, frames⟩ <;> cases token <;>
    first | rfl | exact absurd rfl ht

theorem run_begin {frames : List Frame} {wanted : Wanted} {lexeme : Lexeme} {next : Reading}
    (hw : wanted = .value ∨ wanted = .firstItem) (hb : begin frames lexeme = .ok next)
    (rest : List Lexeme) : run ⟨frames, wanted⟩ (lexeme :: rest) = next.run rest := by
  have ht : lexeme.token ≠ .closeBracket := by
    intro ht
    rw [begin, ht] at hb
    cases hb
  apply run_cons
  · rintro value ⟨⟩
    simp at hw
  · rw [step_eq_begin hw ht, hb]

theorem goesOn_enter {frames : List Frame} {wanted : Wanted} {lexeme : Lexeme} {inside : Reading}
    (hw : wanted = .value ∨ wanted = .firstItem) (ht : lexeme.token ≠ .closeBracket)
    (hb : begin frames lexeme = enter frames lexeme inside) (rest : List Lexeme) :
    GoesOn (frames.length + 1) (run ⟨frames, wanted⟩ (lexeme :: rest)) (inside.run rest) := by
  have hr : ∀ value, (⟨frames, wanted⟩ : Reading) ≠ ⟨[], .next value⟩ := by
    rintro value ⟨⟩
    simp at hw
  constructor
  · intro hf
    apply run_cons hr
    rw [step_eq_begin hw ht, hb, enter, if_pos (Nat.lt_of_succ_le hf)]
  · intro hd
    refine ⟨⟨.tooDeep, lexeme.start, 1⟩, run_cons_of_error hr ?_ rest, rfl⟩
    rw [step_eq_begin hw ht, hb, enter, if_neg (by omega), fault]

def Reads (layout : Layout) (value : Json) : Prop :=
  ∀ depth frames wanted rest, wanted = .value ∨ wanted = .firstItem →
    frames.length ≤ greatestDepth → Closed rest →
      GoesOn (frames.length + value.depth)
        (run ⟨frames, wanted⟩ (lexemes (layout.write depth value ++ rest)))
        (run ⟨frames, .next value⟩ (lexemes rest))

theorem reads_of_isScalar (layout : Layout) {value : Json} (hs : value.isScalar = true)
    (hv : value.Whole) : Reads layout value := by
  intro depth frames wanted rest hw hf hr
  obtain ⟨lexeme, hl, hb⟩ := exists_lexeme_of_isScalar hs hv layout depth hr
  have hd : value.depth = 0 := by
    cases value with
    | array items => cases hs
    | object members => cases hs
    | _ => rfl
  apply GoesOn.of_eq
  · rw [hd]
    exact hf
  · rw [hl, run_begin hw (hb frames)]

theorem run_proceed {frame : Frame} {frames : List Frame} {value : Json} {c : Char} {token : Token}
    {rest : List Char} {next : Reading} (hc : punctuation? c = some token)
    (hp : proceed frame frames value ⟨token, c :: rest, rest⟩ = .ok next) :
    run ⟨frame :: frames, .next value⟩ (lexemes (c :: rest)) = run next (lexemes rest) := by
  rw [lexemes_punctuation hc]
  refine run_cons (by simp) ?_ _
  cases frame <;> exact hp

theorem closed_of_punctuation {c : Char} {token : Token} (h : punctuation? c = some token)
    (rest : List Char) : Closed (c :: rest) := by
  unfold punctuation? at h
  split at h <;> first | rfl | cases h

theorem goesOn_enclose {layout : Layout} (hl : layout.Blank) {first last : Char}
    {entry rest : List Char} {entries : List (List Char)} {before inside after : Reading}
    {levels more depth : Nat}
    (enter : ∀ text, GoesOn levels (run before (lexemes (first :: text)))
      (run inside (lexemes text)))
    (body : levels ≤ greatestDepth → GoesOn (levels + more)
      (run inside (lexemes (List.intercalate (',' :: layout.line (depth + 1)) (entry :: entries) ++
        (layout.line depth ++ last :: rest))))
      (run after (lexemes rest))) :
    GoesOn (levels + more)
      (run before (lexemes (layout.enclose depth first last (entry :: entries) ++ rest)))
      (run after (lexemes rest)) := by
  have ht : layout.enclose depth first last (entry :: entries) ++ rest =
      first :: (layout.line (depth + 1) ++
        (List.intercalate (',' :: layout.line (depth + 1)) (entry :: entries) ++
          (layout.line depth ++ last :: rest))) := by
    simp [Layout.enclose]
  rw [ht, ← Nat.max_eq_right (Nat.le_add_right levels more)]
  refine (enter _).trans fun hs => ?_
  rw [lexemes_append_blanks (hl.line (depth + 1))]
  exact body hs

theorem goesOn_items {layout : Layout} (hl : layout.Blank) {items : List Json} (hn : items ≠ [])
    (ih : ∀ item ∈ items, Reads layout item) (done : List Json) {frames : List Frame}
    {wanted : Wanted} (hw : wanted = .value ∨ wanted = .firstItem)
    (hf : frames.length + 1 ≤ greatestDepth) (depth last : Nat) (rest : List Char) :
    GoesOn (frames.length + 1 + depthOfItems items)
      (run ⟨.array done :: frames, wanted⟩
        (lexemes (List.intercalate (',' :: layout.line depth) (layout.writeItems depth items) ++
          (layout.line last ++ ']' :: rest))))
      (run ⟨frames, .next (.array (done.reverse ++ items))⟩ (lexemes rest)) := by
  have hend : Closed (layout.line last ++ ']' :: rest) :=
    closed_append_blanks (hl.line last) (closed_of_punctuation rfl rest)
  induction items generalizing done wanted with
  | nil => exact absurd rfl hn
  | cons item items ihs =>
    obtain ⟨hi, his⟩ := List.forall_mem_cons.mp ih
    cases items with
    | nil =>
      have hclose : run ⟨.array done :: frames, .next item⟩ (lexemes (']' :: rest)) =
          run ⟨frames, .next (.array (item :: done).reverse)⟩ (lexemes rest) := run_proceed rfl rfl
      have hg := hi depth (.array done :: frames) wanted _ hw hf hend
      rw [lexemes_append_blanks (hl.line last), hclose, List.reverse_cons] at hg
      simpa [Layout.writeItems, depthOfItems] using hg
    | cons other items =>
      have hmore := ihs (List.cons_ne_nil _ _) his (item :: done) (.inl rfl)
      have hc : Closed (',' :: layout.line depth ++
          List.intercalate (',' :: layout.line depth) (layout.writeItems depth (other :: items)) ++
          (layout.line last ++ ']' :: rest)) := closed_of_punctuation rfl _
      have hcomma (text : List Char) :
          run ⟨.array done :: frames, .next item⟩ (lexemes (',' :: text)) =
            run ⟨.array (item :: done) :: frames, .value⟩ (lexemes text) := run_proceed rfl rfl
      have hg := hi depth (.array done :: frames) wanted _ hw hf hc
      rw [List.cons_append, List.cons_append, hcomma, List.append_assoc,
        lexemes_append_blanks (hl.line depth)] at hg
      have ht : List.intercalate (',' :: layout.line depth)
            (layout.writeItems depth (item :: other :: items)) ++ (layout.line last ++ ']' :: rest) =
          layout.write depth item ++ (',' :: layout.line depth ++
            List.intercalate (',' :: layout.line depth) (layout.writeItems depth (other :: items)) ++
            (layout.line last ++ ']' :: rest)) := by
        simp [Layout.writeItems]
      have hall := hg.trans fun _ => hmore
      rw [ht, depthOfItems, ← Nat.add_max_add_left]
      simpa using hall

theorem reads_array {layout : Layout} (hl : layout.Blank) {items : List Json}
    (ih : ∀ item ∈ items, Reads layout item) : Reads layout (array items) := by
  intro depth frames wanted rest hw hf hr
  have enter : ∀ text, GoesOn (frames.length + 1) (run ⟨frames, wanted⟩ (lexemes ('[' :: text)))
      (run ⟨.array [] :: frames, .firstItem⟩ (lexemes text)) := by
    intro text
    rw [lexemes_punctuation rfl]
    exact goesOn_enter hw (by simp) rfl _
  cases items with
  | nil =>
    have hc : run ⟨.array [] :: frames, .firstItem⟩ (lexemes (']' :: rest)) =
        run ⟨frames, .next (.array [])⟩ (lexemes rest) := by
      rw [lexemes_punctuation rfl]
      exact run_cons (by simp) rfl _
    have hg := enter (']' :: rest)
    rw [hc] at hg
    exact hg
  | cons item items =>
    rw [Json.depth, Nat.add_comm _ 1, ← Nat.add_assoc, Layout.write, Layout.writeItems]
    exact goesOn_enclose hl enter fun hs =>
      goesOn_items hl (List.cons_ne_nil _ _) ih [] (.inr rfl) hs (depth + 1) depth rest

theorem run_key {frames : List Frame} {wanted : Wanted} {done : Fields Json}
    (hw : wanted = .key done ∨ done = [] ∧ wanted = .firstKey) (key : String) (rest : List Char) :
    run ⟨frames, wanted⟩ (lexemes (Quoted.encode key.toList ++ ':' :: rest)) =
      run ⟨.object done key :: frames, .value⟩ (lexemes rest) := by
  rw [lexemes_encode, lexemes_punctuation rfl]
  have hcolon : step ⟨frames, .colon done key⟩ ⟨.colon, ':' :: rest, rest⟩ =
      .ok ⟨.object done key :: frames, .value⟩ := by
    rcases frames with _ | ⟨_ | _, frames⟩ <;> rfl
  rw [← run_cons (by simp) hcolon]
  apply run_cons
  · rintro value ⟨⟩
    simp at hw
  · obtain rfl | ⟨rfl, rfl⟩ := hw <;> rcases frames with _ | ⟨_ | _, frames⟩ <;> rfl

/-- The members of an object and its end. A key that is not there yet comes last. -/
theorem goesOn_members {layout : Layout} (hl : layout.Blank) {members : Fields Json}
    (hn : members ≠ []) (ih : ∀ entry ∈ members, Reads layout entry.2) (done : Fields Json)
    (hd : Fields.Distinct (done ++ members)) {frames : List Frame} {wanted : Wanted}
    (hw : wanted = .key done ∨ done = [] ∧ wanted = .firstKey)
    (hf : frames.length + 1 ≤ greatestDepth) (depth last : Nat) (rest : List Char) :
    GoesOn (frames.length + 1 + depthOfMembers members)
      (run ⟨frames, wanted⟩
        (lexemes (List.intercalate (',' :: layout.line depth) (layout.writeMembers depth members) ++
          (layout.line last ++ '}' :: rest))))
      (run ⟨frames, .next (.object (done ++ members))⟩ (lexemes rest)) := by
  have hend : Closed (layout.line last ++ '}' :: rest) :=
    closed_append_blanks (hl.line last) (closed_of_punctuation rfl rest)
  induction members generalizing done wanted with
  | nil => exact absurd rfl hn
  | cons entry members ihs =>
    obtain ⟨key, value⟩ := entry
    obtain ⟨hi, his⟩ := List.forall_mem_cons.mp ih
    have hp : done.put key value = done ++ [(key, value)] :=
      Fields.put_of_not_mem (Fields.not_mem_keys_of_distinct hd) value
    cases members with
    | nil =>
      have hclose : run ⟨.object done key :: frames, .next value⟩ (lexemes ('}' :: rest)) =
          run ⟨frames, .next (.object (done.put key value))⟩ (lexemes rest) := run_proceed rfl rfl
      have hg := hi depth (.object done key :: frames) .value _ (.inl rfl) hf hend
      rw [lexemes_append_blanks (hl.line last), hclose, hp,
        ← lexemes_append_blanks hl.afterColon, ← run_key hw] at hg
      simpa [Layout.writeMembers, depthOfMembers] using hg
    | cons other members =>
      have hmore := ihs (List.cons_ne_nil _ _) his (done ++ [(key, value)])
        (by simpa using hd) (.inl rfl)
      have hc : Closed (',' :: layout.line depth ++
          List.intercalate (',' :: layout.line depth) (layout.writeMembers depth (other :: members)) ++
          (layout.line last ++ '}' :: rest)) := closed_of_punctuation rfl _
      have hcomma (text : List Char) :
          run ⟨.object done key :: frames, .next value⟩ (lexemes (',' :: text)) =
            run ⟨frames, .key (done.put key value)⟩ (lexemes text) := run_proceed rfl rfl
      have hg := hi depth (.object done key :: frames) .value _ (.inl rfl) hf hc
      rw [List.cons_append, List.cons_append, hcomma, List.append_assoc,
        lexemes_append_blanks (hl.line depth), hp, ← lexemes_append_blanks hl.afterColon,
        ← run_key hw] at hg
      have ht : List.intercalate (',' :: layout.line depth)
            (layout.writeMembers depth ((key, value) :: other :: members)) ++
            (layout.line last ++ '}' :: rest) =
          Quoted.encode key.toList ++ ':' :: (layout.afterColon ++ (layout.write depth value ++
            (',' :: (layout.line depth ++ (List.intercalate (',' :: layout.line depth)
              (layout.writeMembers depth (other :: members)) ++
                (layout.line last ++ '}' :: rest)))))) := by
        simp [Layout.writeMembers]
      have hall := hg.trans fun _ => hmore
      rw [ht, depthOfMembers, ← Nat.add_max_add_left]
      simpa using hall

theorem reads_object {layout : Layout} (hl : layout.Blank) {members : Fields Json}
    (hd : members.Distinct) (ih : ∀ entry ∈ members, Reads layout entry.2) :
    Reads layout (object members) := by
  intro depth frames wanted rest hw hf hr
  have enter : ∀ text, GoesOn (frames.length + 1) (run ⟨frames, wanted⟩ (lexemes ('{' :: text)))
      (run ⟨frames, .firstKey⟩ (lexemes text)) := by
    intro text
    rw [lexemes_punctuation rfl]
    exact goesOn_enter hw (by simp) rfl _
  cases members with
  | nil =>
    have hc : run ⟨frames, .firstKey⟩ (lexemes ('}' :: rest)) =
        run ⟨frames, .next (.object [])⟩ (lexemes rest) := by
      rw [lexemes_punctuation rfl]
      apply run_cons (by simp)
      rcases frames with _ | ⟨_ | _, frames⟩ <;> rfl
    have hg := enter ('}' :: rest)
    rw [hc] at hg
    exact hg
  | cons entry members =>
    rw [Json.depth, Nat.add_comm _ 1, ← Nat.add_assoc, Layout.write, Layout.writeMembers]
    exact goesOn_enclose hl enter fun hs =>
      goesOn_members hl (List.cons_ne_nil _ _) ih [] hd (.inr ⟨rfl, rfl⟩) hs (depth + 1) depth rest

theorem reads_write {layout : Layout} (hl : layout.Blank) {value : Json} (hv : value.WellFormed)
    (hw : value.Whole) : Reads layout value := by
  induction value with
  | array items ih =>
    apply reads_array hl
    intro item hi
    exact ih item hi (wellFormed_array.mp hv item hi) (whole_array.mp hw item hi)
  | object members ih =>
    obtain ⟨hd, hm⟩ := wellFormed_object.mp hv
    apply reads_object hl hd
    intro entry he
    exact ih entry he (hm entry he) (whole_object.mp hw entry he)
  | _ => exact reads_of_isScalar layout rfl hw

end Reading

theorem goesOn_readValue {layout : Layout} (hl : layout.Blank) {value : Json}
    (hv : value.WellFormed) (hw : value.Whole) :
    Reading.GoesOn value.depth (readValue (lexemes (layout.write 0 value))) (.ok (value, [])) := by
  have hr := Reading.reads_write hl hv hw 0 [] .value [] (.inl rfl) (Nat.zero_le _) closed_nil
  simpa [readValue, lexemes, Reading.run] using hr

theorem ofText_write {layout : Layout} (hl : layout.Blank) {value : Json} (hv : value.WellFormed)
    (hw : value.Whole) (hd : value.depth ≤ greatestDepth) :
    ofText (String.ofList (layout.write 0 value)) = .ok value := by
  have hr := (goesOn_readValue hl hv hw).fits hd
  rw [ofText, ofChars, readAll, String.toList_ofList, hr]
  rfl

theorem ofText_write_of_tooDeep {layout : Layout} (hl : layout.Blank) {value : Json}
    (hv : value.WellFormed) (hw : value.Whole) (hd : greatestDepth < value.depth) :
    ∃ mistake, ofText (String.ofList (layout.write 0 value)) = .error mistake ∧
      mistake.reason = .tooDeep := by
  obtain ⟨stop, hr, hs⟩ := (goesOn_readValue hl hv hw).tooDeep hd
  rw [ofText, ofChars, readAll, String.toList_ofList, hr]
  exact ⟨_, rfl, hs⟩

end StructuralSchema.Json
