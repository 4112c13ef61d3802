import StructuralSchema.Json.Comparison
import StructuralSchema.Json.Reader
import StructuralSchema.Proofs.Results
import StructuralSchema.Proofs.Trees

namespace StructuralSchema

namespace Json

theorem wellFormed_of_isScalar {value : Json} (h : value.isScalar = true) : value.WellFormed := by
  cases value with
  | array items => cases h
  | object members => cases h
  | _ => trivial

theorem wellFormed_put {done : Fields Json} (h : (object done).WellFormed) (key : String)
    {value : Json} (hv : value.WellFormed) : (object (done.put key value)).WellFormed := by
  obtain ⟨hd, hm⟩ := wellFormed_object.mp h
  refine wellFormed_object.mpr ⟨Fields.distinct_put hd key value, ?_⟩
  intro entry he
  obtain rfl | ho := Fields.mem_put he
  · exact hv
  · exact hm entry ho

/-- A token that stands for a value of its own stands for a scalar. -/
def Token.Plain : Token → Prop
  | .scalar (.ok value) => value.isScalar = true
  | _ => True

theorem eq_of_word {value read : Json} {letters text rest : List Char}
    (h : word value letters text = .ok (read, rest)) : read = value := by
  fun_induction word value letters text with
  | case1 => simp_all
  | case2 => contradiction
  | case3 _ _ _ ih => exact ih h
  | case4 => contradiction

theorem isScalar_of_word? {c : Char} {value : Json} {letters : List Char}
    (h : word? c = some (value, letters)) : value.isScalar = true := by
  unfold word? at h
  split at h <;> simp at h <;> obtain ⟨rfl, _⟩ := h <;> rfl

theorem plain_nextToken (c : Char) (rest : List Char) : (nextToken c rest).1.Plain := by
  unfold nextToken
  split
  · rename_i token hp
    unfold punctuation? at hp
    split at hp <;> simp at hp <;> subst hp <;> trivial
  · rename_i value letters _ hw
    unfold scalarToken
    split
    · rename_i hr
      exact eq_of_word hr ▸ isScalar_of_word? hw
    · trivial
  · split
    · unfold stringToken
      split <;> trivial
    · split
      · unfold numberToken
        split
        · rfl
        · trivial
      · trivial

theorem plain_of_mem_lexemes {text : List Char} {lexeme : Lexeme} (h : lexeme ∈ lexemes text) :
    lexeme.token.Plain := by
  fun_induction lexemes text with
  | case1 => cases h
  | case2 _ _ _ ih => exact ih h
  | case3 c rest _ ih =>
    cases h with
    | head => exact plain_nextToken c rest
    | tail _ h => exact ih h

def Frame.WellFormed : Frame → Prop
  | .array done => ∀ item ∈ done, item.WellFormed
  | .object done _ => (Json.object done).WellFormed

def Wanted.WellFormed : Wanted → Prop
  | .key done => (Json.object done).WellFormed
  | .colon done _ => (Json.object done).WellFormed
  | .next read => read.WellFormed
  | _ => True

namespace Reading

structure WellFormed (reading : Reading) : Prop where
  frames : ∀ frame ∈ reading.frames, frame.WellFormed
  wanted : reading.wanted.WellFormed

theorem wellFormed_begin {frames : List Frame} {lexeme : Lexeme} {next : Reading}
    (hf : ∀ frame ∈ frames, frame.WellFormed) (hp : lexeme.token.Plain)
    (h : begin frames lexeme = .ok next) : next.WellFormed := by
  obtain ⟨token, start, rest⟩ := lexeme
  cases token with
  | scalar read =>
    cases read with
    | error stop => cases h
    | ok value =>
      cases h
      exact ⟨hf, wellFormed_of_isScalar hp⟩
  | string read =>
    cases read with
    | error stop => cases h
    | ok text =>
      cases h
      exact ⟨hf, trivial⟩
  | openBracket =>
    simp only [begin, enter] at h
    split at h <;> cases h
    exact ⟨List.forall_mem_cons.mpr ⟨by simp [Frame.WellFormed], hf⟩, trivial⟩
  | openBrace =>
    simp only [begin, enter] at h
    split at h <;> cases h
    exact ⟨hf, trivial⟩
  | _ => cases h

theorem wellFormed_takeKey {frames : List Frame} {done : Fields Json} {lexeme : Lexeme}
    {next : Reading} (hf : ∀ frame ∈ frames, frame.WellFormed)
    (hd : (Json.object done).WellFormed) (h : takeKey frames done lexeme = .ok next) :
    next.WellFormed := by
  obtain ⟨token, start, rest⟩ := lexeme
  cases token with
  | string read =>
    cases read with
    | error stop => cases h
    | ok text =>
      cases h
      exact ⟨hf, hd⟩
  | _ => cases h

theorem wellFormed_proceed {frame : Frame} {frames : List Frame} {value : Json} {lexeme : Lexeme}
    {next : Reading} (hf : frame.WellFormed) (hs : ∀ frame ∈ frames, frame.WellFormed)
    (hv : value.WellFormed) (h : proceed frame frames value lexeme = .ok next) :
    next.WellFormed := by
  obtain ⟨token, start, rest⟩ := lexeme
  cases frame with
  | array done =>
    have ha : ∀ item ∈ value :: done, item.WellFormed := List.forall_mem_cons.mpr ⟨hv, hf⟩
    cases token with
    | comma =>
      cases h
      exact ⟨List.forall_mem_cons.mpr ⟨ha, hs⟩, trivial⟩
    | closeBracket =>
      cases h
      exact ⟨hs, wellFormed_array.mpr fun item hi => ha item (List.mem_reverse.mp hi)⟩
    | _ => cases h
  | object done key =>
    have hput := wellFormed_put hf key hv
    cases token with
    | comma =>
      cases h
      exact ⟨hs, hput⟩
    | closeBrace =>
      cases h
      exact ⟨hs, hput⟩
    | _ => cases h

theorem wellFormed_nil : (Json.object []).WellFormed :=
  wellFormed_object.mpr ⟨List.nodup_nil, by simp⟩

theorem wellFormed_step {reading next : Reading} {lexeme : Lexeme} (hr : reading.WellFormed)
    (hp : lexeme.token.Plain) (h : reading.step lexeme = .ok next) : next.WellFormed := by
  obtain ⟨frames, wanted⟩ := reading
  obtain ⟨hf, hw⟩ := hr
  simp only [step] at h
  split at h
  · cases h
  · exact wellFormed_begin hf hp h
  · cases h
    exact ⟨(List.forall_mem_cons.mp hf).2, wellFormed_array.mpr (by simp)⟩
  · exact wellFormed_begin hf hp h
  · cases h
    exact ⟨hf, wellFormed_nil⟩
  · exact wellFormed_takeKey hf wellFormed_nil h
  · cases h
  · exact wellFormed_takeKey hf hw h
  · cases h
    exact ⟨List.forall_mem_cons.mpr ⟨hw, hf⟩, trivial⟩
  · cases h
  · obtain ⟨hframe, hrest⟩ := List.forall_mem_cons.mp hf
    exact wellFormed_proceed hframe hrest hw h
  · cases h
    exact ⟨hf, hw⟩

theorem wellFormed_run {reading : Reading} {text rest : List Lexeme} {value : Json}
    (hr : reading.WellFormed) (hp : ∀ lexeme ∈ text, lexeme.token.Plain)
    (h : reading.run text = .ok (value, rest)) : value.WellFormed := by
  fun_induction run reading text with
  | case1 value' =>
    cases h
    exact hr.wanted
  | case2 => cases h
  | case3 lexeme rest' value' =>
    cases h
    exact hr.wanted
  | case4 reading lexeme rest' _ next hs ih =>
    obtain ⟨hl, ht⟩ := List.forall_mem_cons.mp hp
    exact ih (wellFormed_step hr hl hs) ht h
  | case5 => cases h

end Reading

theorem wellFormed_of_ofText {text : String} {value : Json} (h : ofText text = .ok value) :
    value.WellFormed := by
  unfold ofText ofChars at h
  rw [mapError_eq_ok_iff] at h
  unfold readAll readValue at h
  have hr : Reading.WellFormed ⟨[], .value⟩ := ⟨by simp, trivial⟩
  split at h
  · rename_i read hread
    obtain rfl : read = value := Except.ok.inj h
    exact Reading.wellFormed_run hr (fun _ => plain_of_mem_lexemes) hread
  · cases h
  · cases h

end Json

end StructuralSchema
