import RestDispatch.Response

/-!
# Bodies that are rejected

Each response format has its own way to reject a body, and JSON has a second one for a body without
octets. The other typed formats leave that to their readers: a YAML text may have no document, and
what that stands for depends on the shape, so that for some shapes an empty body is read as if
something had been sent. `emptyBody_iff` says which error comes of which body in every format, and
which shapes accept an empty one.
-/

namespace RestDispatch
namespace TypedFormat

variable {α : Type} {format : TypedFormat α} {body : Bytes}

/-- Whether a format tells a body without octets from a text that it rejects. -/
def tellsEmpty : TypedFormat α → Bool
  | .json _ => true
  | .yaml _ | .xml _ => false

/-- Whether an error is that of the reader of a format. -/
def IsRejection : TypedFormat α → ValidationError → Prop
  | .json _, e => ∃ reason place, e = .jsonParse reason place
  | .yaml _, e => e = .yamlParse
  | .xml _, e => e = .xmlParse

theorem IsRejection.ne_emptyBody {e : ValidationError} (h : format.IsRejection e) :
    e ≠ .emptyBody := by
  rintro rfl
  cases format with
  | json => exact nomatch h
  | yaml => exact nomatch h
  | xml => exact nomatch h

/-- A body is empty where that is told, or else the reader of the format decides. -/
theorem parse_cases (format : TypedFormat α) (body : Bytes) :
    (format.tellsEmpty = true ∧ body = []) ∧ format.parse body = .error .emptyBody ∨
      ¬ (format.tellsEmpty = true ∧ body = []) ∧
        ((∃ v, format.parse body = .ok v) ∨
          ∃ e, format.parse body = .error e ∧ format.IsRejection e) := by
  cases format with
  | json read =>
    by_cases hb : body = []
    · exact .inl ⟨⟨rfl, hb⟩, if_pos hb⟩
    · refine .inr ⟨fun h => hb h.2, ?_⟩
      rw [parse, if_neg hb]
      cases read body with
      | ok v => exact .inl ⟨v, rfl⟩
      | error f => exact .inr ⟨_, rfl, _, _, rfl⟩
  | yaml read =>
    refine .inr ⟨fun h => (nomatch h.1), ?_⟩
    rw [parse]
    cases read body with
    | some v => exact .inl ⟨v, rfl⟩
    | none => exact .inr ⟨_, rfl, rfl⟩
  | xml read =>
    refine .inr ⟨fun h => (nomatch h.1), ?_⟩
    rw [parse]
    cases read body with
    | some v => exact .inl ⟨v, rfl⟩
    | none => exact .inr ⟨_, rfl, rfl⟩

theorem parse_eq_emptyBody_iff :
    format.parse body = .error .emptyBody ↔ format.tellsEmpty = true ∧ body = [] := by
  rcases format.parse_cases body with ⟨ht, hp⟩ | ⟨ht, ⟨v, hp⟩ | ⟨e, hp, he⟩⟩
  · exact ⟨fun _ => ht, fun _ => hp⟩
  · rw [hp]
    exact ⟨(nomatch ·), fun h => absurd h ht⟩
  · rw [hp]
    exact ⟨fun h => absurd (Except.error.inj h) he.ne_emptyBody, fun h => absurd h ht⟩

theorem isRejection_of_parse {e : ValidationError} (h : format.parse body = .error e)
    (hn : e ≠ .emptyBody) : format.IsRejection e := by
  rcases format.parse_cases body with ⟨-, hp⟩ | ⟨-, ⟨v, hp⟩ | ⟨e', hp, he⟩⟩
  · cases hp.symm.trans h
    exact absurd rfl hn
  · cases hp.symm.trans h
  · cases hp.symm.trans h
    exact he

end TypedFormat

/-! ### Empty bodies -/

/-- Whether nothing at all counts as a datum of a shape: a record has to have fields that may all be
left out. -/
def Shape.AdmitsNothing : Shape → Prop
  | .optional _ | .any | .unit | .list _ => True
  | .record _ fields => ∀ f ∈ fields, ∃ v, f.ifMissing? = some v
  | _ => False

/-- A record of which no field is found is complete exactly if all fields may be left out. -/
theorem RecordField.exists_collect_nil_iff {fields : List (RecordField Shape)} :
    (∃ data, collect [] fields = .ok data) ↔ ∀ f ∈ fields, ∃ v, f.ifMissing? = some v := by
  induction fields with
  | nil => simp [collect]
  | cons f fs ih =>
    rw [List.forall_mem_cons, ← ih, collect]
    cases hf : f.ifMissing? with
    | none => simp [lookupEntry]
    | some v => cases collect [] fs <;> simp [lookupEntry, Except.map]

namespace Yaml

theorem readAs_void (anchors : Anchors) (room : Nat) (shape : Shape) (jumps : Nat) :
    readAs anchors room shape jumps .void = (voidAs shape).map (·, jumps) := by
  rw [readAs]
  cases room <;> rfl

/-- A text without octets has no document. -/
theorem ofText?_nil : Node.ofText? [] = some .void := by
  have hchars : decode [] = some [] := by decide +kernel
  have htokens : tokenize [] = some [] := by rfl
  simp only [Node.ofText?, hchars, htokens, Option.bind_eq_bind, Option.bind_some]
  rfl

theorem parseAs_nil (shape : Shape) : parseAs shape [] = voidAs shape := by
  simp only [parseAs, ofText?_nil, Option.bind_eq_bind, Option.bind_some, readAs_void]
  cases voidAs shape <;> rfl

theorem exists_voidAs_iff {shape : Shape} :
    (∃ v, voidAs shape = some v) ↔ shape.AdmitsNothing := by
  cases shape with
  | record name fields =>
    rw [Shape.AdmitsNothing, ← RecordField.exists_collect_nil_iff, voidAs]
    cases RecordField.collect [] fields <;> simp [Except.toOption]
  | _ => simp [voidAs, Shape.AdmitsNothing]

end Yaml

namespace Xml

/-- A text without octets has no elements, and is null or a list of none. -/
theorem parseAs_nil (shape : Shape) : parseAs shape [] =
    match shape with
    | .optional _ => some .null
    | .list _ => some (.array [])
    | _ => none := by
  cases shape <;> rfl

theorem exists_parseAs_nil_iff {shape : Shape} :
    (∃ v, parseAs shape [] = some v) ↔ shape.isOptional = true ∨ ∃ s, shape = .list s := by
  rw [parseAs_nil]
  cases shape <;> simp [Shape.isOptional]

end Xml

/-! ### All formats -/

namespace ResponseFormat

theorem exists_parse_yaml_iff {shape : Shape} {body : Bytes} :
    (∃ v, (yaml shape).parse body = .ok v) ↔ ∃ v, Yaml.parseAs shape body = some v := by
  rw [parse, TypedFormat.parse]
  cases Yaml.parseAs shape body <;> simp [Except.map]

theorem exists_parse_xml_iff {shape : Shape} {body : Bytes} :
    (∃ v, (xml shape).parse body = .ok v) ↔ ∃ v, Xml.parseAs shape body = some v := by
  rw [parse, TypedFormat.parse]
  cases Xml.parseAs shape body <;> simp [Except.map]

/-- A text format rejects a body only as none of its texts. -/
theorem exists_mismatch_of_parse {format : ResponseFormat} (hf : format ∈ [text, html, csv])
    {body : Bytes} {e : ValidationError} (h : format.parse body = .error e) :
    ∃ expected actual, e = .contentTypeMismatch expected actual := by
  obtain ⟨expected, ht⟩ : ∃ expected, parseText expected body = .error e := by
    simp only [List.mem_cons, List.not_mem_nil, or_false] at hf
    rcases hf with rfl | rfl | rfl
    · exact ⟨_, h⟩
    · exact ⟨_, h⟩
    · exact ⟨_, h⟩
  unfold parseText at ht
  split at ht
  · cases ht
  · cases ht
    exact ⟨_, _, rfl⟩

theorem exists_parse_of_mem {format : ResponseFormat} (hf : format ∈ [binary, empty])
    (body : Bytes) : ∃ v, format.parse body = .ok v := by
  simp only [List.mem_cons, List.not_mem_nil, or_false] at hf
  rcases hf with rfl | rfl
  · exact ⟨_, rfl⟩
  · exact ⟨_, rfl⟩

/-- **How bodies are rejected.** Whatever the type of the data and its reader, a typed format tells
exactly the body without octets to be empty if and only if the format is JSON or the body has
octets: no other format tells it. Every other rejection is the error of the format's own reader. An
empty body is accepted as YAML exactly for the shapes of which nothing at all is a datum, and as XML
exactly for those that may be null and for lists. A text format rejects a body only as none of its
texts, and the other formats reject none. -/
theorem emptyBody_iff {α : Type} (format : TypedFormat α) (body : Bytes) (shape : Shape) :
    ((format.parse body = .error .emptyBody ↔ body = []) ↔
        format.tellsEmpty = true ∨ body ≠ []) ∧
      (∀ e, format.parse body = .error e → e ≠ .emptyBody → format.IsRejection e) ∧
      ((∃ v, (yaml shape).parse [] = .ok v) ↔ shape.AdmitsNothing) ∧
      ((∃ v, (xml shape).parse [] = .ok v) ↔ shape.isOptional = true ∨ ∃ s, shape = .list s) ∧
      (∀ plain ∈ [text, html, csv], ∀ e, plain.parse body = .error e →
        ∃ expected actual, e = .contentTypeMismatch expected actual) ∧
      ∀ any ∈ [binary, empty], ∃ v, any.parse body = .ok v := by
  refine ⟨?_, fun e => TypedFormat.isRejection_of_parse, ?_, ?_,
    fun _ hf _ => exists_mismatch_of_parse hf, fun _ hf => exists_parse_of_mem hf body⟩
  · rw [TypedFormat.parse_eq_emptyBody_iff]
    by_cases hb : body = [] <;> simp [hb]
  · rw [exists_parse_yaml_iff, Yaml.parseAs_nil, Yaml.exists_voidAs_iff]
  · rw [exists_parse_xml_iff, Xml.exists_parseAs_nil_iff]

/-- An empty body is told to be empty where JSON is expected, and an octet that begins no character
is no text. -/
theorem emptyBody_iff_octet :
    (TypedFormat.json (Json.parseAs .any)).parse [] = .error .emptyBody ∧
      ∃ e, text.parse [0xFF] = .error e ∧ e.isFormatMismatch = true := by
  refine ⟨((emptyBody_iff (.json (Json.parseAs .any)) [] .any).1.2 (.inl rfl)).2 rfl, ?_⟩
  have hfault : Utf8.decode [0xFF] = .error (.invalid 1 0) := by
    rw [Utf8.decode, Utf8.decodeFrom]
    rfl
  have he : text.parse [0xFF] = .error (.contentTypeMismatch "valid UTF-8 text"
      ("invalid UTF-8: " ++ (Utf8.Fault.invalid 1 0).message)) := by
    rw [parse, parseText, hfault]
  obtain ⟨expected, actual, hmismatch⟩ :=
    (emptyBody_iff (.json (Json.parseAs .any)) [0xFF] .any).2.2.2.2.1 text (.head _) _ he
  exact ⟨_, he, hmismatch ▸ rfl⟩

/-- An empty body is null where any YAML is expected, and a malformed text where XML is. -/
theorem empty_not_told :
    ((TypedFormat.yaml (Yaml.parseAs .any)).parse [] = .ok .null ∧
        ¬ ((TypedFormat.yaml (Yaml.parseAs .any)).parse [] = .error .emptyBody ↔
          ([] : Bytes) = [])) ∧
      (TypedFormat.xml (Xml.parseAs .text)).parse [] = .error .xmlParse ∧
        ¬ ((TypedFormat.xml (Xml.parseAs .text)).parse [] = .error .emptyBody ↔
          ([] : Bytes) = []) := by
  have hyaml : (TypedFormat.yaml (Yaml.parseAs .any)).parse [] = .ok .null := by
    rw [TypedFormat.parse, Yaml.parseAs_nil]
    rfl
  have hxml : (TypedFormat.xml (Xml.parseAs .text)).parse [] = .error .xmlParse := by
    rw [TypedFormat.parse, Xml.parseAs_nil]
  refine ⟨⟨hyaml, fun h => ?_⟩, hxml, fun h => ?_⟩
  · exact nomatch hyaml.symm.trans (h.2 rfl)
  · exact nomatch hxml.symm.trans (h.2 rfl)

end ResponseFormat
end RestDispatch
