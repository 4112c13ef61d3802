import StructuralSchema.Options.Text
import StructuralSchema.Proofs.Json.Continuation

namespace StructuralSchema.Options

open Json

variable {part : Part} {first other : Lexeme} {text longer : List Lexeme} {given : Given}
  {options : Options} {name : String}

theorem readSize_of_token {size : Option UInt64} (ht : first.token = other.token)
    (h : readSize part first = .ok size) : readSize part other = .ok size := by
  rw [readSize] at h ⊢
  rw [← ht]
  split at h
  · exact h
  · split at h
    · contradiction
    · rename_i hn
      rw [if_neg hn]
      exact h
  · contradiction

theorem readLoose_of_token {loose : Bool} (ht : first.token = other.token)
    (h : readLoose part first = .ok loose) : readLoose part other = .ok loose := by
  rw [readLoose] at h ⊢
  rw [← ht]
  split at h
  · exact h
  · contradiction

theorem take_of_token {next : Given} (ht : first.token = other.token)
    (h : given.take name first = .ok next) : given.take name other = .ok next := by
  rw [Given.take] at h ⊢
  split at h
  · rename_i hs
    obtain ⟨size, hr, hn⟩ := bind_eq_ok_iff.mp h
    rw [if_pos hs, readSize_of_token ht hr]
    exact hn
  · rename_i hs
    obtain ⟨loose, hr, hn⟩ := bind_eq_ok_iff.mp h
    rw [if_neg hs, readLoose_of_token ht hr]
    exact hn

theorem afterMember_cons_eq_ok_iff :
    afterMember given (first :: text) = .ok options ↔
      first.token = .closeBrace ∧ options = given.options ∨
        first.token = .comma ∧ nextMember given text = .ok options := by
  rw [afterMember]
  split
  · rename_i ht
    simp [ht, eq_comm]
  · rename_i ht
    simp [ht]
  · simp_all

theorem nextMember_cons_eq_ok_iff :
    nextMember given (first :: text) = .ok options ↔
      ∃ name, first.token = .string (.ok name) ∧ member given name text = .ok options := by
  rw [nextMember]
  split <;> simp_all

theorem member_cons_eq_ok_iff :
    member given name (first :: text) = .ok options ↔
      given.has? name = some false ∧ first.token = .colon ∧
        memberValue given name text = .ok options := by
  rw [member]
  split
  · simp_all
  · simp_all
  · split <;> simp_all

theorem memberValue_cons_eq_ok_iff :
    memberValue given name (first :: text) = .ok options ↔
      ∃ next, given.take name first = .ok next ∧ afterMember next text = .ok options := by
  rw [memberValue, bind_eq_ok_iff]

theorem firstMember_cons_eq_ok_iff :
    firstMember (first :: text) = .ok options ↔
      first.token = .closeBrace ∧ options = {} ∨
        ∃ name, first.token = .string (.ok name) ∧ member {} name text = .ok options := by
  rw [firstMember]
  split
  · rename_i ht
    simp [ht, eq_comm]
  · simp_all
  · simp_all
  · simp_all

theorem afterItems_cons_eq_ok_iff {read : Options} :
    afterItems read (first :: text) = .ok options ↔
      first.token = .closeBracket ∧ options = read := by
  unfold afterItems
  dsimp only
  split
  · rename_i ht
    simp [ht, eq_comm]
  · simp_all
  · split <;> simp_all
  · simp_all

theorem secondItem_cons_eq_ok_iff {size : Option UInt64} :
    secondItem size (first :: text) = .ok options ↔
      first.token = .closeBracket ∧ options = ⟨size, false⟩ ∨
        first.token = .comma ∧ ∃ second rest loose, text = second :: rest ∧
          readLoose (.item 1) second = .ok loose ∧ afterItems ⟨size, loose⟩ rest = .ok options := by
  unfold secondItem
  dsimp only
  split
  · rename_i ht
    simp [ht, eq_comm]
  · simp_all
  · rename_i ht
    split
    · rename_i hs
      simp_all [readLoose]
    · simp_all [bind_eq_ok_iff]
  · simp_all

theorem firstItem_cons_eq_ok_iff :
    firstItem (first :: text) = .ok options ↔
      first.token = .closeBracket ∧ options = {} ∨
        ∃ size, readSize (.item 0) first = .ok size ∧ secondItem size text = .ok options := by
  rw [firstItem]
  split
  · rename_i ht
    simp [ht, eq_comm, readSize]
  · simp_all [bind_eq_ok_iff]

theorem ofLexemes_cons_eq_ok_iff :
    ofLexemes (first :: text) = .ok options ↔
      first.token = .openBrace ∧ firstMember text = .ok options ∨
        first.token = .openBracket ∧ firstItem text = .ok options := by
  rw [ofLexemes]
  split <;> simp_all

theorem member_nil_ne_ok : member given name [] ≠ .ok options := by
  rw [member]
  split <;> exact nofun

/-- What is read from the lexemes of an object is read from the other lexemes as well. -/
structure Kept (text longer : List Lexeme) : Prop where
  after : ∀ {given options}, afterMember given text = .ok options →
    afterMember given longer = .ok options
  next : ∀ {given options}, nextMember given text = .ok options →
    nextMember given longer = .ok options
  named : ∀ {given name options}, member given name text = .ok options →
    member given name longer = .ok options
  value : ∀ {given name options}, memberValue given name text = .ok options →
    memberValue given name longer = .ok options

theorem kept_nil (longer : List Lexeme) : Kept [] longer where
  after := nofun
  next := nofun
  named h := absurd h member_nil_ne_ok
  value := nofun

/-- A text of which the last lexeme is not a single character holds no whole object. -/
theorem kept_last (h : ¬first.token.Single) (longer : List Lexeme) : Kept [first] longer where
  after hr := by
    obtain ⟨ht, _⟩ | ⟨ht, _⟩ := afterMember_cons_eq_ok_iff.mp hr <;> exact absurd (ht ▸ trivial) h
  next hr := by
    obtain ⟨name, _, hm⟩ := nextMember_cons_eq_ok_iff.mp hr
    exact absurd hm member_nil_ne_ok
  named hr := by
    obtain ⟨_, ht, _⟩ := member_cons_eq_ok_iff.mp hr
    exact absurd (ht ▸ trivial) h
  value hr := by
    obtain ⟨_, _, ha⟩ := memberValue_cons_eq_ok_iff.mp hr
    contradiction

theorem kept_cons (ht : first.token = other.token) (h : Kept text longer) :
    Kept (first :: text) (other :: longer) where
  after hr := by
    rw [afterMember_cons_eq_ok_iff] at hr ⊢
    rw [← ht]
    exact hr.imp id (And.imp id h.next)
  next hr := by
    rw [nextMember_cons_eq_ok_iff] at hr ⊢
    rw [← ht]
    exact hr.imp fun _ => And.imp id h.named
  named hr := by
    rw [member_cons_eq_ok_iff] at hr ⊢
    rw [← ht]
    exact ⟨hr.1, hr.2.1, h.value hr.2.2⟩
  value hr := by
    rw [memberValue_cons_eq_ok_iff] at hr ⊢
    exact hr.imp fun _ => And.imp (take_of_token ht) h.after

theorem kept_of_continues (h : Continues text longer) : Kept text longer := by
  induction h with
  | nil longer => exact kept_nil longer
  | last hs longer => exact kept_last hs longer
  | cons ht _ ih => exact kept_cons ht ih

theorem firstMember_of_continues (h : Continues text longer) (hr : firstMember text = .ok options) :
    firstMember longer = .ok options := by
  cases h with
  | nil => contradiction
  | last hs =>
    obtain ⟨ht, _⟩ | ⟨name, _, hm⟩ := firstMember_cons_eq_ok_iff.mp hr
    · exact absurd (ht ▸ trivial) hs
    · exact absurd hm member_nil_ne_ok
  | cons ht hc =>
    rw [firstMember_cons_eq_ok_iff] at hr ⊢
    rw [← ht]
    exact hr.imp id (Exists.imp fun _ => And.imp id (kept_of_continues hc).named)

theorem afterItems_of_continues {read : Options} (h : Continues text longer)
    (hr : afterItems read text = .ok options) : afterItems read longer = .ok options := by
  cases h with
  | nil => contradiction
  | last hs => exact absurd ((afterItems_cons_eq_ok_iff.mp hr).1 ▸ trivial) hs
  | cons ht hc =>
    rw [afterItems_cons_eq_ok_iff] at hr ⊢
    exact ⟨ht ▸ hr.1, hr.2⟩

theorem secondItem_of_continues {size : Option UInt64} (h : Continues text longer)
    (hr : secondItem size text = .ok options) : secondItem size longer = .ok options := by
  cases h with
  | nil => contradiction
  | last hs =>
    obtain ⟨ht, _⟩ | ⟨ht, _⟩ := secondItem_cons_eq_ok_iff.mp hr <;> exact absurd (ht ▸ trivial) hs
  | cons ht hc =>
    rw [secondItem_cons_eq_ok_iff] at hr ⊢
    rw [← ht]
    obtain hb | ⟨hcomma, second, rest, loose, rfl, hloose, hafter⟩ := hr
    · exact .inl hb
    -- the second item has to have a bracket after it, so it is not the last lexeme
    cases hc with
    | last => contradiction
    | cons hsecond hc =>
      exact .inr ⟨hcomma, _, _, loose, rfl, readLoose_of_token hsecond hloose,
        afterItems_of_continues hc hafter⟩

theorem firstItem_of_continues (h : Continues text longer) (hr : firstItem text = .ok options) :
    firstItem longer = .ok options := by
  cases h with
  | nil => contradiction
  | last hs =>
    obtain ⟨ht, _⟩ | ⟨size, _, hsecond⟩ := firstItem_cons_eq_ok_iff.mp hr
    · exact absurd (ht ▸ trivial) hs
    · contradiction
  | cons ht hc =>
    rw [firstItem_cons_eq_ok_iff] at hr ⊢
    rw [← ht]
    exact hr.imp id
      (Exists.imp fun _ => And.imp (readSize_of_token ht) (secondItem_of_continues hc))

theorem ofLexemes_of_continues (h : Continues text longer) (hr : ofLexemes text = .ok options) :
    ofLexemes longer = .ok options := by
  cases h with
  | nil => contradiction
  | last hs =>
    obtain ⟨ht, _⟩ | ⟨ht, _⟩ := ofLexemes_cons_eq_ok_iff.mp hr <;> exact absurd (ht ▸ trivial) hs
  | cons ht hc =>
    rw [ofLexemes_cons_eq_ok_iff] at hr ⊢
    rw [← ht]
    exact hr.imp (And.imp id (firstMember_of_continues hc)) (And.imp id (firstItem_of_continues hc))

/-- Text behind options that were read may change a token that was not looked at, and nothing else. -/
theorem ofText_append {text : String} (h : ofText text = .ok options) (more : String) :
    ofText (text ++ more) = .ok options := by
  rw [ofText, mapError_eq_ok_iff] at h ⊢
  rw [String.toList_append]
  exact ofLexemes_of_continues (continues_lexemes text.toList more.toList) h

theorem toNat_fits (n : UInt64) : -2 ^ 63 ≤ (n.toNat : Int) ∧ (n.toNat : Int) < 2 ^ 64 := by
  have h := n.toNat_lt
  omega

def sizeValue : Option UInt64 → Json
  | some n => .number (.int n.toNat (toNat_fits n))
  | none => .null

theorem toJson_eq (options : Options) :
    options.toJson =
      .object [(sizeField, sizeValue options.maxSize), (looseField, .bool options.looselyTyped)] := by
  obtain ⟨size, loose⟩ := options
  cases size <;> rfl

theorem exists_lexeme_sizeValue (size : Option UInt64) (rest : List Char)
    (hr : Numeral.Closed rest) :
    ∃ lexeme, lexemes (Layout.compact.write 1 (sizeValue size) ++ rest) = lexeme :: lexemes rest ∧
      ∀ part, readSize part lexeme = .ok size := by
  cases size with
  | none => exact ⟨_, lexemes_cons rfl rfl, fun part => rfl⟩
  | some n =>
    refine ⟨_, lexemes_integer n.toNat (toNat_fits n) hr, fun part => ?_⟩
    simp [readSize]

theorem exists_lexeme_bool (loose : Bool) (rest : List Char) :
    ∃ lexeme, lexemes (Layout.compact.write 1 (.bool loose) ++ rest) = lexeme :: lexemes rest ∧
      ∀ part, readLoose part lexeme = .ok loose := by
  cases loose <;> exact ⟨_, lexemes_cons rfl rfl, fun part => rfl⟩

theorem compact_object_pair (key key' : String) (value value' : Json) (rest : List Char) :
    (Json.object [(key, value), (key', value')]).compact.toList ++ rest =
      '{' :: (Quoted.encode key.toList ++ ':' :: (Layout.compact.write 1 value ++ ',' ::
        (Quoted.encode key'.toList ++ ':' ::
          (Layout.compact.write 1 value' ++ '}' :: rest)))) := by
  have hl : ∀ depth, Layout.compact.line depth = [] := fun _ => rfl
  have hc : Layout.compact.afterColon = [] := rfl
  rw [Json.compact, String.toList_ofList]
  simp [Layout.write, Layout.writeMembers, Layout.enclose, List.intercalate, hl, hc]

theorem ofLexemes_toJson (options : Options) (rest : List Char) :
    ofLexemes (lexemes (options.toJson.compact.toList ++ rest)) = .ok options := by
  obtain ⟨looseLexeme, hloose, hreadLoose⟩ :=
    exists_lexeme_bool options.looselyTyped ('}' :: rest)
  obtain ⟨sizeLexeme, hsize, hreadSize⟩ :=
    exists_lexeme_sizeValue options.maxSize
      (',' :: (Quoted.encode looseField.toList ++ ':' ::
        (Layout.compact.write 1 (.bool options.looselyTyped) ++ '}' :: rest))) rfl
  rw [toJson_eq, compact_object_pair, lexemes_punctuation rfl, lexemes_encode,
    lexemes_punctuation rfl, hsize, lexemes_punctuation rfl, lexemes_encode,
    lexemes_punctuation rfl, hloose, lexemes_punctuation rfl]
  apply ofLexemes_cons_eq_ok_iff.mpr (.inl ⟨rfl, ?_⟩)
  apply firstMember_cons_eq_ok_iff.mpr (.inr ⟨sizeField, rfl, ?_⟩)
  apply member_cons_eq_ok_iff.mpr ⟨rfl, rfl, ?_⟩
  apply memberValue_cons_eq_ok_iff.mpr ⟨⟨some options.maxSize, none⟩, ?_, ?_⟩
  · rw [Given.take, if_pos rfl, hreadSize]
    rfl
  apply afterMember_cons_eq_ok_iff.mpr (.inr ⟨rfl, ?_⟩)
  apply nextMember_cons_eq_ok_iff.mpr ⟨looseField, rfl, ?_⟩
  apply member_cons_eq_ok_iff.mpr ⟨rfl, rfl, ?_⟩
  apply memberValue_cons_eq_ok_iff.mpr
    ⟨⟨some options.maxSize, some options.looselyTyped⟩, ?_, ?_⟩
  · rw [Given.take, if_neg (by decide), hreadLoose]
    rfl
  exact afterMember_cons_eq_ok_iff.mpr (.inl ⟨rfl, rfl⟩)

theorem ofText_toJson_append (options : Options) (more : String) :
    ofText (options.toJson.compact ++ more) = .ok options := by
  rw [ofText, mapError_eq_ok_iff, String.toList_append]
  exact ofLexemes_toJson options more.toList

theorem merged_merged (options : Options) (first second : Option UInt64) (x y : Bool) :
    (options.merged first x).merged second y = options.merged (second.or first) (x || y) := by
  simp [merged, Option.or_assoc, Bool.or_assoc]

/-- Options are read back from their text, nothing after a text that is read changes what it is read
as, and settings put over options twice are the later ones where they are given. -/
theorem ofText_append_and_merged_merged (options : Options) :
    (∀ more, ofText (options.toJson.compact ++ more) = .ok options) ∧
      (∀ text read more, ofText text = .ok read → ofText (text ++ more) = .ok read) ∧
      ∀ first second x y,
        (options.merged first x).merged second y = options.merged (second.or first) (x || y) :=
  ⟨ofText_toJson_append options, fun _ _ more h => ofText_append h more, merged_merged options⟩

theorem ofText_append_and_merged_merged_greatest :
    let greatest : Options := ⟨some 18446744073709551615, true⟩
    let text := "\x7b\"max_size_in_bytes\":18446744073709551615,\"loosely_typed\":true\x7d"
    ofText text = .ok greatest ∧
      ofText (text ++ "1\x7b\"max_size_in_bytes\":1\x7d") = .ok greatest := by
  intro greatest text
  have ht : greatest.toJson.compact ++ "" = text := by decide
  obtain ⟨hw, ha, _⟩ := ofText_append_and_merged_merged greatest
  have h : ofText text = .ok greatest := ht ▸ hw ""
  exact ⟨h, ha text greatest _ h⟩

end StructuralSchema.Options
