import CardLink.Json.Value
import CardLink.Proofs.Lexemes

/-!
# Texts of JSON values

A value is read back from its tokens, however deep its arrays and objects are nested (`ofTokens?_tokens`).
With the scanner, it is read from every text that spells its tokens, with any blanks (`ofText?_of_spelled`),
and the text that it is written as is one of these (`spelled_render`).
-/

namespace CardLink.Json

/-! ## Neighbouring tokens -/

section Neighbours

variable {left right : List Token} {token : Token} (closed : token.IsClosed)
include closed

/-- A token that has an end of its own can stand before any other. -/
theorem isChain_first (behind : right.IsChain Token.Meets) : (token :: right).IsChain Token.Meets :=
  List.isChain_cons.mpr ⟨fun _ _ => .inl closed, behind⟩

theorem isChain_around (before : left.IsChain Token.Meets) (behind : right.IsChain Token.Meets) :
    (left ++ token :: right).IsChain Token.Meets := by
  refine List.isChain_append.mpr ⟨before, isChain_first closed behind, ?_⟩
  rintro _ _ _ ⟨⟩
  exact .inr closed

end Neighbours

mutual
theorem isChain_tokens (j : Json) : j.tokens.IsChain Token.Meets := by
  cases j with
  | null | boolean | number | text =>
    rw [tokens]
    exact .singleton _
  | array items =>
    rw [tokens]
    exact isChain_around trivial (isChain_first trivial (isChain_itemTokens items)) .nil
  | object members =>
    rw [tokens]
    exact isChain_around trivial (isChain_first trivial (isChain_memberTokens members)) .nil

theorem isChain_itemTokens (items : List Json) : (itemTokens items).IsChain Token.Meets := by
  match items with
  | [] => exact .nil
  | [item] => exact isChain_tokens item
  | item :: next :: rest =>
    exact isChain_around trivial (isChain_tokens item) (isChain_itemTokens (next :: rest))

theorem isChain_memberTokens (members : List (List Char × Json)) :
    (memberTokens members).IsChain Token.Meets := by
  match members with
  | [] => exact .nil
  | [(key, value)] => exact isChain_first trivial (isChain_first trivial (isChain_tokens value))
  | (key, value) :: next :: rest =>
    have comma : Token.IsClosed .comma := trivial
    have further := isChain_around comma (isChain_tokens value) (isChain_memberTokens (next :: rest))
    exact isChain_first trivial (isChain_first trivial further)
end

/-! ## Reading tokens -/

/-- Where a first item may stand, it is read as any other value. -/
theorem step_firstItem {token : Token} (item : token ≠ .closeBracket) (outer : Context) :
    Reader.step (.firstItem outer) token = Reader.step (.value (.inArray [] outer)) token := by
  cases token with
  | closeBracket => exact absurd rfl item
  | _ => rfl

/-- No value starts with the end of an array. -/
theorem exists_tokens_cons (j : Json) : ∃ token later, j.tokens = token :: later ∧ token ≠ .closeBracket := by
  cases j <;> exact ⟨_, _, rfl, nofun⟩

theorem itemTokens_cons_cons (item next : Json) (rest : List Json) :
    itemTokens (item :: next :: rest) = item.tokens ++ .comma :: itemTokens (next :: rest) := rfl

theorem memberTokens_cons_cons (key : List Char) (value : Json) (next : List Char × Json)
    (rest : List (List Char × Json)) : memberTokens ((key, value) :: next :: rest) =
      .quoted key :: .colon :: (value.tokens ++ .comma :: memberTokens (next :: rest)) := rfl

theorem foldlM_firstItem (item : Json) (rest : List Json) (outer : Context) (behind : List Token) :
    (itemTokens (item :: rest) ++ behind).foldlM Reader.step (.firstItem outer) =
      (itemTokens (item :: rest) ++ behind).foldlM Reader.step (.value (.inArray [] outer)) := by
  obtain ⟨token, later, shape, notEnd⟩ := exists_tokens_cons item
  obtain ⟨later', shape'⟩ : ∃ later', itemTokens (item :: rest) = token :: later' := by
    cases rest with
    | nil => exact ⟨later, shape⟩
    | cons next rest => exact ⟨_, by rw [itemTokens_cons_cons, shape, List.cons_append]⟩
  rw [shape', List.cons_append, List.foldlM_cons, List.foldlM_cons, step_firstItem notEnd]

mutual
theorem foldlM_tokens (j : Json) (place : Context) :
    j.tokens.foldlM Reader.step (.value place) = some (.afterValue j place) := by
  match j with
  | null | boolean _ | number _ | text _ => rfl
  | array [] | object [] => rfl
  | array (item :: rest) =>
    change (itemTokens (item :: rest) ++ [Token.closeBracket]).foldlM Reader.step (.firstItem place) = _
    rw [foldlM_firstItem]
    exact foldlM_itemTokens item rest [] place
  | object ((key, value) :: rest) =>
    -- The first key is read as any later one, in an object without members before it.
    have members := foldlM_memberTokens key value rest [] place
    cases rest <;> exact members
termination_by sizeOf j

theorem foldlM_itemTokens (item : Json) (rest before : List Json) (outer : Context) :
    (itemTokens (item :: rest) ++ [Token.closeBracket]).foldlM Reader.step (.value (.inArray before outer)) =
      some (.afterValue (.array (before ++ item :: rest)) outer) := by
  match rest with
  | [] =>
    rw [itemTokens, List.foldlM_append, foldlM_tokens item]
    rfl
  | next :: rest =>
    have further := foldlM_itemTokens next rest (before ++ [item]) outer
    rw [List.append_assoc, List.singleton_append] at further
    rw [itemTokens_cons_cons, List.append_assoc, List.foldlM_append, foldlM_tokens item]
    exact further
termination_by sizeOf (item :: rest)

theorem foldlM_memberTokens (key : List Char) (value : Json) (rest before : List (List Char × Json))
    (outer : Context) :
    (memberTokens ((key, value) :: rest) ++ [Token.closeBrace]).foldlM Reader.step (.nextKey before outer) =
      some (.afterValue (.object (before ++ (key, value) :: rest)) outer) := by
  match rest with
  | [] =>
    change (value.tokens ++ [Token.closeBrace]).foldlM Reader.step (.value (.inObject before key outer)) = _
    rw [List.foldlM_append, foldlM_tokens value]
    rfl
  | (key', value') :: rest =>
    have further := foldlM_memberTokens key' value' rest (before ++ [(key, value)]) outer
    rw [List.append_assoc, List.singleton_append] at further
    rw [memberTokens_cons_cons]
    change ((value.tokens ++ Token.comma :: memberTokens ((key', value') :: rest)) ++ [Token.closeBrace]).foldlM
      Reader.step (.value (.inObject before key outer)) = _
    rw [List.append_assoc, List.foldlM_append, foldlM_tokens value]
    exact further
termination_by sizeOf ((key, value) :: rest)
end

/-- A value is read back from its tokens. -/
theorem ofTokens?_tokens (j : Json) : ofTokens? j.tokens = some j := by
  rw [ofTokens?, foldlM_tokens]
  rfl

/-! ## Reading texts -/

/-- Any spelling of the tokens of a value is read as the value. -/
theorem ofText?_of_spelled {j : Json} {text : String} (lexemes : ∀ token ∈ j.tokens, token.IsLexeme)
    (spelled : Spelled j.tokens text.toList) : ofText? text = some j := by
  rw [ofText?, scan_of_spelled spelled lexemes (isChain_tokens j), Option.bind_some, ofTokens?_tokens]

theorem spelled_flatMap {blanks : List Char} (blank : IsBlanks blanks) (tokens : List Token) :
    Spelled tokens (tokens.flatMap fun token => blanks ++ token.spell) := by
  induction tokens with
  | nil => exact .nil nofun
  | cons token tokens ih =>
    rw [List.flatMap_cons, List.append_assoc]
    exact .cons blank ih

/-- A value is written without blanks. -/
theorem spelled_render (j : Json) : Spelled j.tokens j.render.toList := by
  have none : IsBlanks [] := nofun
  rw [render, String.toList_ofList]
  exact spelled_flatMap none j.tokens

/-! ## Parts of values -/

/-- A member counts for a key if it spells it, in whatever way. -/
theorem valuesOf_cons {raw text : List Char} (spells : Spells raw text) (key : String) (value : Json)
    (members : List (List Char × Json)) : valuesOf key ((raw, value) :: members) =
      if text = key.toList then value :: valuesOf key members else valuesOf key members := by
  have same_iff : String.ofList text = key ↔ text = key.toList := by
    rw [← String.toList_inj, String.toList_ofList]
  by_cases same : text = key.toList
  · simp [valuesOf, unescape?_of_spells spells, same]
  · simp [valuesOf, unescape?_of_spells spells, same_iff, same]

theorem isLexeme_ofNat (n : Nat) : ∀ token ∈ (ofNat n).tokens, token.IsLexeme :=
  List.forall_mem_singleton.mpr (numeral_digits n)

section Members

variable {members : List (List Char × Json)}
  (parts : ∀ member ∈ members, Quoted member.1 ∧ ∀ token ∈ member.2.tokens, token.IsLexeme)
include parts

theorem isLexeme_memberTokens : ∀ token ∈ memberTokens members, token.IsLexeme := by
  induction members with
  | nil => exact nofun
  | cons member rest ih =>
    obtain ⟨key, value⟩ := member
    obtain ⟨quoted, lexemes⟩ := parts (key, value) List.mem_cons_self
    have later := ih fun member later => parts member (List.mem_cons_of_mem _ later)
    cases rest with
    | nil =>
      rw [memberTokens]
      simp only [List.forall_mem_cons]
      exact ⟨quoted, trivial, lexemes⟩
    | cons next rest =>
      rw [memberTokens_cons_cons]
      simp only [List.forall_mem_cons, List.forall_mem_append]
      exact ⟨quoted, trivial, lexemes, trivial, later⟩

/-- The tokens of an object are spelled as the grammar says if its keys and its values are. -/
theorem isLexeme_object : ∀ token ∈ (object members).tokens, token.IsLexeme := by
  rw [tokens]
  simp only [List.cons_append, List.forall_mem_cons, List.forall_mem_append]
  exact ⟨trivial, isLexeme_memberTokens parts, trivial, nofun⟩

end Members

end CardLink.Json
