import CardLink.Options.Json
import CardLink.Proofs.JsonTexts

/-!
# Options survive their text

Options that are written and read again are the same, without the convention. The text may also be edited:
members of the object may be put in another order, left out, and mixed with others whose keys are unknown
(`IsEdit`), and blanks may be put anywhere between tokens. Whatever is still there is read as it was written, and
what was left out is the default (`Options.kept`).

A key is found by the text that it spells, so that what an edit says of a key (`valuesOf_of_isEdit`) decides each
field on its own.
-/

namespace CardLink

/-! ## Durations -/

namespace Duration

theorem spells_secs : Json.Spells "secs".toList "secs".toList := Json.spells_of_plain (by simp [Json.IsPlain])

theorem spells_nanos : Json.Spells "nanos".toList "nanos".toList := Json.spells_of_plain (by simp [Json.IsPlain])

theorem ofJson?_members (seconds nanos : Json) :
    ofJson? (.object [("secs".toList, seconds), ("nanos".toList, nanos)]) = ofJsonParts? seconds nanos := by
  have secs : Json.valuesOf "secs" [("secs".toList, seconds), ("nanos".toList, nanos)] = [seconds] := by
    rw [Json.valuesOf_cons spells_secs, Json.valuesOf_cons spells_nanos]
    simp [Json.valuesOf]
  have nanos : Json.valuesOf "nanos" [("secs".toList, seconds), ("nanos".toList, nanos)] = [nanos] := by
    rw [Json.valuesOf_cons spells_secs, Json.valuesOf_cons spells_nanos]
    simp [Json.valuesOf]
  rw [ofJson?, secs, nanos]
  rfl

theorem ofJsonParts?_ofNat {seconds nanos : Nat} (seconds_lt : seconds < UInt64.size)
    (nanos_lt : nanos < UInt32.size) : ofJsonParts? (.ofNat seconds) (.ofNat nanos) = ofParts? seconds nanos := by
  rw [ofJsonParts?, Json.natBelow?_ofNat_bind seconds_lt, Json.natBelow?_ofNat_bind nanos_lt]

/-- Every duration is read from what it is written as, up to the longest one. -/
theorem ofJson?_toJson (d : Duration) : ofJson? d.toJson = some d := by
  have nanos : d.subsecNanos < UInt32.size := Nat.lt_trans d.subsecNanos_lt (by decide)
  rw [toJson, ofJson?_members, ofJsonParts?_ofNat d.seconds_lt nanos, ofParts?_parts]

theorem isLexeme_toJson (d : Duration) : ∀ token ∈ d.toJson.tokens, token.IsLexeme := by
  apply Json.isLexeme_object
  simp only [List.forall_mem_cons]
  exact ⟨⟨spells_secs.quoted, Json.isLexeme_ofNat _⟩, ⟨spells_nanos.quoted, Json.isLexeme_ofNat _⟩, nofun⟩

end Duration

namespace Options

/-! ## Fields -/

/-- What is written of options. -/
inductive Field where
  | host
  | node
  | bwt
  | etu
deriving DecidableEq

namespace Field

def key : Field → String
  | host => "host_address"
  | node => "node_address"
  | bwt => "bwt"
  | etu => "etu"

def value (o : Options) : Field → Json
  | host => .ofNat o.host.toNat
  | node => .ofNat o.node.toNat
  | bwt => o.bwt.toJson
  | etu => o.etu.toJson

theorem key_inj {field field' : Field} : field.key = field'.key ↔ field = field' := by
  cases field <;> cases field' <;> decide

theorem spells_key (field : Field) : Json.Spells field.key.toList field.key.toList := by
  apply Json.spells_of_plain
  cases field <;> simp [key, Json.IsPlain]

theorem isLexeme_value (o : Options) (field : Field) : ∀ token ∈ (field.value o).tokens, token.IsLexeme := by
  cases field with
  | host | node => exact Json.isLexeme_ofNat _
  | bwt => exact o.bwt.isLexeme_toJson
  | etu => exact o.etu.isLexeme_toJson

end Field

/-- The options that are read if only some fields are there. -/
def kept (o : Options) (fields : List Field) : Options where
  host := if .host ∈ fields then o.host else ({} : Options).host
  node := if .node ∈ fields then o.node else ({} : Options).node
  bwt := if .bwt ∈ fields then o.bwt else ({} : Options).bwt
  etu := if .etu ∈ fields then o.etu else ({} : Options).etu

theorem kept_all (o : Options) {fields : List Field} (all : ∀ field, field ∈ fields) :
    o.kept fields = { o with convention := none } := by
  simp [kept, all]

/-! ## Edits -/

/-- The members of an object with some fields of the options, in this order, and among them any members with
    keys that are not known. -/
inductive IsEdit (o : Options) : List Field → List (List Char × Json) → Prop where
  | nil : IsEdit o [] []
  | known {raw fields members} (field : Field) (spells : Json.Spells raw field.key.toList)
      (rest : IsEdit o fields members) : IsEdit o (field :: fields) ((raw, field.value o) :: members)
  | unknown {raw text value fields members} (spells : Json.Spells raw text)
      (other : ∀ field : Field, text ≠ field.key.toList) (lexemes : ∀ token ∈ value.tokens, token.IsLexeme)
      (rest : IsEdit o fields members) : IsEdit o fields ((raw, value) :: members)

section Edits

variable {o : Options} {fields : List Field} {members : List (List Char × Json)}
  (edited : IsEdit o fields members)
include edited

theorem isLexeme_of_isEdit : ∀ token ∈ (Json.object members).tokens, token.IsLexeme := by
  apply Json.isLexeme_object
  induction edited with
  | nil => exact nofun
  | known field spells _ ih => exact List.forall_mem_cons.mpr ⟨⟨spells.quoted, field.isLexeme_value o⟩, ih⟩
  | unknown spells _ lexemes _ ih => exact List.forall_mem_cons.mpr ⟨⟨spells.quoted, lexemes⟩, ih⟩

theorem keys_of_isEdit : members.all (fun (raw, _) => (Json.unescape? raw).isSome) = true := by
  induction edited with
  | nil => rfl
  | known _ spells _ ih | unknown spells _ _ _ ih => simp [Json.unescape?_of_spells spells, ih]

/-- A field is found once for each time it is there. -/
theorem valuesOf_of_isEdit (field : Field) :
    Json.valuesOf field.key members = List.replicate (fields.count field) (field.value o) := by
  induction edited with
  | nil => rfl
  | known field' spells _ ih =>
    rw [Json.valuesOf_cons spells, ih]
    simp only [String.toList_inj, Field.key_inj, List.count_cons, beq_iff_eq]
    by_cases same : field' = field
    · simp [same, List.replicate_succ]
    · simp [same]
  | unknown spells other _ _ ih => rw [Json.valuesOf_cons spells, if_neg (other field), ih]

theorem field?_of_isEdit {α : Type} (once : fields.Nodup) (field : Field) {read : Json → Option α} {x : α}
    (reads : read (field.value o) = some x) (default : α) :
    Json.field? members field.key read default = some (if field ∈ fields then x else default) := by
  rw [Json.field?, valuesOf_of_isEdit edited, List.Nodup.count once]
  by_cases there : field ∈ fields
  · simp [there, reads]
  · simp [there]

/-- What an edit keeps is read as it was written, and the rest as the defaults. -/
theorem ofJson?_of_isEdit (once : fields.Nodup) : ofJson? (.object members) = some (o.kept fields) := by
  have host := field?_of_isEdit edited once .host (Json.byte?_ofNat o.host) ({} : Options).host
  have node := field?_of_isEdit edited once .node (Json.byte?_ofNat o.node) ({} : Options).node
  have bwt := field?_of_isEdit edited once .bwt o.bwt.ofJson?_toJson ({} : Options).bwt
  have etu := field?_of_isEdit edited once .etu o.etu.ofJson?_toJson ({} : Options).etu
  simp only [Field.key] at host node bwt etu
  rw [ofJson?, keys_of_isEdit edited, host, node, bwt, etu]
  rfl

theorem parse?_of_isEdit (once : fields.Nodup) {text : String}
    (spelled : Json.Spelled (Json.object members).tokens text.toList) : parse? text = some (o.kept fields) := by
  rw [parse?, Json.ofText?_of_spelled (isLexeme_of_isEdit edited) spelled, Option.bind_some,
    ofJson?_of_isEdit edited once]

end Edits

/-- What options are written as has all of the fields, in a fixed order. -/
theorem isEdit_toJson (o : Options) :
    ∃ members, o.toJson = .object members ∧ IsEdit o [.host, .node, .bwt, .etu] members := by
  refine ⟨_, rfl, ?_⟩
  apply IsEdit.known .host (Field.spells_key .host)
  apply IsEdit.known .node (Field.spells_key .node)
  apply IsEdit.known .bwt (Field.spells_key .bwt)
  exact .known .etu (Field.spells_key .etu) .nil

theorem parse?_serialize (o : Options) : parse? o.serialize = some { o with convention := none } := by
  obtain ⟨members, shape, edited⟩ := o.isEdit_toJson
  have spelled := Json.spelled_render o.toJson
  have all : ∀ field, field ∈ [Field.host, .node, .bwt, .etu] := by rintro (_ | _ | _ | _) <;> decide
  rw [← kept_all o all]
  rw [shape] at spelled
  rw [serialize, shape]
  exact parse?_of_isEdit edited (by decide) spelled

/-- Options are read from their own text, apart from the convention. From an edited text they are read as far as
    it still has their fields, and with the defaults for the others. -/
theorem parse?_edited (o : Options) :
    parse? o.serialize = some { o with convention := none } ∧
      ∀ fields members text, fields.Nodup → IsEdit o fields members →
        Json.Spelled (Json.object members).tokens text.toList →
          parse? text = some (o.kept fields) ∧
            ((∀ field, field ∈ fields) → o.kept fields = { o with convention := none }) := by
  refine ⟨o.parse?_serialize, ?_⟩
  intro fields members text once edited spelled
  exact ⟨parse?_of_isEdit edited once spelled, o.kept_all⟩

theorem parse?_edited_longest :
    parse? (" \x7b \"bwt\" : \x7b \"secs\" : 18446744073709551615 , \"nanos\" : 999999999 \x7d ," ++
      " \"preprocess\" : null , \"host_address\" : 7 \x7d") =
        some { host := 7, bwt := Duration.clamp Duration.limit } := by
  let o : Options := ⟨7, 0, Duration.clamp Duration.limit, default, some .zeroAddressCheck⟩
  let members : List (List Char × Json) :=
    [("bwt".toList, o.bwt.toJson), ("preprocess".toList, .null), ("host_address".toList, .ofNat 7)]
  have edited : IsEdit o [.bwt, .host] members := by
    apply IsEdit.known .bwt (Field.spells_key .bwt)
    apply IsEdit.unknown (Json.spells_of_plain (by simp [Json.IsPlain]))
    · rintro (_ | _ | _ | _) <;> decide
    · exact List.forall_mem_singleton.mpr trivial
    · exact .known .host (Field.spells_key .host) .nil
  have blank : Json.IsBlanks [' '] := List.forall_mem_singleton.mpr (by decide)
  have spelled := Json.spelled_flatMap blank (Json.object members).tokens
  refine ((parse?_edited o).2 [.bwt, .host] members _ (by decide) edited ?_).1
  have seconds : o.bwt.seconds = 18446744073709551615 := by decide
  have nanos : o.bwt.subsecNanos = 999999999 := by decide
  convert spelled using 1
  simp [members, Json.tokens, Json.memberTokens, Json.Token.spell, Duration.toJson, Json.ofNat, seconds, nanos,
    Decimal.digits]

end Options

end CardLink
