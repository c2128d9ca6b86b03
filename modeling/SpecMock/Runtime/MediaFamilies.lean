import SpecMock.Runtime.Media

/-!
# Families of media types

A media type is taken for JSON or XML by its ending and for binary by its
beginning, so that an image whose format is written in XML is both.  The
encoder asks for JSON and XML first.
-/

namespace SpecMock.Runtime

open SpecMock.Library SpecMock.Core

/-- Of two beginnings of one text, one begins the other. -/
theorem startsWith_total {first second text : String} (begins : startsWith first text = true)
    (other : startsWith second text = true) :
    startsWith first second = true ∨ startsWith second first = true := by
  rcases List.prefix_or_prefix_of_prefix (of_decide_eq_true begins) (of_decide_eq_true other) with
    short | long
  · exact .inl (decide_eq_true short)
  · exact .inr (decide_eq_true long)

theorem endsWith_total {first second text : String} (ends : endsWith first text = true)
    (other : endsWith second text = true) :
    endsWith first second = true ∨ endsWith second first = true := by
  rcases List.suffix_or_suffix_of_suffix (of_decide_eq_true ends) (of_decide_eq_true other) with
    short | long
  · exact .inl (decide_eq_true short)
  · exact .inr (decide_eq_true long)

/-- Images, sound and video. -/
def isMediaContent (mediaType : String) : Bool :=
  startsWith "image/" (normalizeMediaType mediaType) ||
    startsWith "audio/" (normalizeMediaType mediaType) ||
      startsWith "video/" (normalizeMediaType mediaType)

/-- The ending of a structured syntax. -/
def hasStructuredSuffix (mediaType : String) : Bool :=
  endsWith "+json" (normalizeMediaType mediaType) ||
    endsWith "+xml" (normalizeMediaType mediaType)

/-- The type is of none of the four families. -/
def isUnclassified (mediaType : String) : Bool :=
  !isJsonMediaType mediaType && !isXmlMediaType mediaType && !isTextMediaType mediaType &&
    !isBinaryMediaType mediaType

/-- A type is of one family at most, and its bodies are encoded as its family says. -/
structure FamilyApart (mediaType : String) : Prop where
  single : [isJsonMediaType mediaType, isXmlMediaType mediaType, isTextMediaType mediaType,
    isBinaryMediaType mediaType].count true ≤ 1
  verbatim : isTextMediaType mediaType = true ∨ isBinaryMediaType mediaType = true ∨
    isUnclassified mediaType = true →
      ∀ text schema, encodeBody mediaType (.string text) schema = text
  json : isJsonMediaType mediaType = true →
    ∀ value schema, encodeBody mediaType value schema = value.toText
  xml : isXmlMediaType mediaType = true →
    ∀ value schema, encodeBody mediaType value schema = jsonToXml (xmlRootName schema) value

variable {mediaType : String}

theorem not_xml_of_json (json : isJsonMediaType mediaType = true) :
    isXmlMediaType mediaType = false := by
  rw [← Bool.not_eq_true]
  intro xml
  simp only [isJsonMediaType, isXmlMediaType, Bool.or_eq_true, beq_iff_eq] at json xml
  rcases json with plain | ending
  · rw [plain] at xml
    exact absurd xml (by decide)
  · rcases xml with ((plain | other) | plain) | plain
    · exact absurd (plain ▸ ending) (by decide)
    · exact absurd (endsWith_total other ending) (by decide)
    · exact absurd (plain ▸ ending) (by decide)
    · exact absurd (plain ▸ ending) (by decide)

theorem not_structured_of_text (text : isTextMediaType mediaType = true) :
    isJsonMediaType mediaType = false ∧ isXmlMediaType mediaType = false := by
  unfold isTextMediaType at text
  dsimp only at text
  split at text
  next => cases text
  next unstructured => simpa using unstructured

theorem isBinaryMediaType_iff :
    isBinaryMediaType mediaType = true ↔ isMediaContent mediaType = true ∨
      normalizeMediaType mediaType ∈ ["application/octet-stream", "application/pdf",
        "application/zip", "application/gzip"] := by
  simp [isBinaryMediaType, isMediaContent]

theorem isMediaContent_iff :
    isMediaContent mediaType = true ↔ ∃ content ∈ ["image/", "audio/", "video/"],
      startsWith content (normalizeMediaType mediaType) = true := by
  simp [isMediaContent, or_assoc]

/-- A type of text is not binary. -/
theorem not_binary_of_text (text : isTextMediaType mediaType = true) :
    isBinaryMediaType mediaType = false := by
  rw [← Bool.not_eq_true, isBinaryMediaType_iff, isMediaContent_iff]
  unfold isTextMediaType at text
  dsimp only at text
  split at text
  next => cases text
  next =>
    simp only [Bool.or_eq_true, decide_eq_true_eq] at text
    generalize normalizeMediaType mediaType = normalized at text ⊢
    rcases text with start | listed
    · rintro (⟨content, media, begins⟩ | binary)
      · have apart : ∀ content ∈ ["image/", "audio/", "video/"],
            ¬ (startsWith "text/" content = true ∨ startsWith content "text/" = true) := by decide
        exact apart content media (startsWith_total start begins)
      · have apart : ∀ name ∈ ["application/octet-stream", "application/pdf", "application/zip",
            "application/gzip"], ¬ startsWith "text/" name = true := by decide
        exact apart normalized binary start
    · have apart : ∀ name ∈ ["application/javascript", "application/x-javascript",
          "application/ecmascript", "application/x-www-form-urlencoded", "application/yaml",
          "application/x-yaml"],
          ¬ ((∃ content ∈ ["image/", "audio/", "video/"], startsWith content name = true) ∨
            name ∈ ["application/octet-stream", "application/pdf", "application/zip",
              "application/gzip"]) := by decide
      exact apart normalized listed

/-- A binary type that is JSON or XML begins as media content and has the ending of a syntax. -/
theorem structured_binary_iff :
    isBinaryMediaType mediaType = true ∧
        (isJsonMediaType mediaType = true ∨ isXmlMediaType mediaType = true) ↔
      isMediaContent mediaType = true ∧ hasStructuredSuffix mediaType = true := by
  simp only [isBinaryMediaType_iff, isMediaContent_iff, isJsonMediaType, isXmlMediaType,
    hasStructuredSuffix, Bool.or_eq_true, beq_iff_eq]
  generalize normalizeMediaType mediaType = normalized
  have named : ∀ name ∈ ["application/json", "text/xml", "application/xml",
      "application/xhtml+xml"],
      ¬ ((∃ content ∈ ["image/", "audio/", "video/"], startsWith content name = true) ∨
        name ∈ ["application/octet-stream", "application/pdf", "application/zip",
          "application/gzip"]) := by decide
  have archived : ∀ name ∈ ["application/octet-stream", "application/pdf", "application/zip",
      "application/gzip"], ¬ (endsWith "+json" name = true ∨ endsWith "+xml" name = true) := by
    decide
  constructor
  · rintro ⟨binary, structured⟩
    have ending : endsWith "+json" normalized = true ∨ endsWith "+xml" normalized = true := by
      rcases structured with (rfl | json) | (((rfl | xml) | rfl) | rfl)
      · exact absurd binary (named _ (by simp))
      · exact .inl json
      · exact absurd binary (named _ (by simp))
      · exact .inr xml
      · exact absurd binary (named _ (by simp))
      · exact absurd binary (named _ (by simp))
    rcases binary with media | listed
    · exact ⟨media, ending⟩
    · exact absurd ending (archived normalized listed)
  · rintro ⟨media, json | xml⟩
    · exact ⟨.inl media, .inl (.inr json)⟩
    · exact ⟨.inl media, .inr (.inl (.inl (.inr xml)))⟩

theorem encodeBody_of_json (json : isJsonMediaType mediaType = true) (value : Value)
    (schema : Option Value) : encodeBody mediaType value schema = value.toText := by
  unfold encodeBody
  rw [if_pos json]

theorem encodeBody_of_xml (xml : isXmlMediaType mediaType = true) (value : Value)
    (schema : Option Value) :
    encodeBody mediaType value schema = jsonToXml (xmlRootName schema) value := by
  have plain : ¬ isJsonMediaType mediaType = true := by
    intro json
    rw [not_xml_of_json json] at xml
    cases xml
  unfold encodeBody
  rw [if_neg plain, if_pos xml]

theorem encodeBody_of_unstructured (json : isJsonMediaType mediaType = false)
    (xml : isXmlMediaType mediaType = false) (text : String) (schema : Option Value) :
    encodeBody mediaType (.string text) schema = text := by
  unfold encodeBody
  rw [if_neg (by rw [json]; exact Bool.false_ne_true),
    if_neg (by rw [xml]; exact Bool.false_ne_true)]

/-- What is neither JSON nor XML where a string should travel as it is. -/
theorem unstructured_of_apart
    (apart : ¬ (isBinaryMediaType mediaType = true ∧
      (isJsonMediaType mediaType = true ∨ isXmlMediaType mediaType = true)))
    (family : isTextMediaType mediaType = true ∨ isBinaryMediaType mediaType = true ∨
      isUnclassified mediaType = true) :
    isJsonMediaType mediaType = false ∧ isXmlMediaType mediaType = false := by
  rcases family with text | binary | unclassified
  · exact not_structured_of_text text
  · simpa [binary] using apart
  · simp only [isUnclassified, Bool.and_eq_true, Bool.not_eq_true'] at unclassified
    exact unclassified.1.1

theorem single_of_apart
    (apart : ¬ (isBinaryMediaType mediaType = true ∧
      (isJsonMediaType mediaType = true ∨ isXmlMediaType mediaType = true))) :
    [isJsonMediaType mediaType, isXmlMediaType mediaType, isTextMediaType mediaType,
      isBinaryMediaType mediaType].count true ≤ 1 := by
  cases text : isTextMediaType mediaType with
  | true =>
      obtain ⟨json, xml⟩ := not_structured_of_text text
      simp [json, xml, not_binary_of_text text]
  | false =>
      cases json : isJsonMediaType mediaType with
      | true =>
          have plain : isBinaryMediaType mediaType = false := by simpa [json] using apart
          simp [not_xml_of_json json, plain]
      | false =>
          cases xml : isXmlMediaType mediaType with
          | true =>
              have plain : isBinaryMediaType mediaType = false := by simpa [xml] using apart
              simp [plain]
          | false => cases isBinaryMediaType mediaType <;> simp

/--
The families are apart, and a string travels as it is wherever it should,
unless the type is that of an image, a sound or a video in JSON or XML.
-/
theorem familyApart_iff (mediaType : String) :
    FamilyApart mediaType ↔
      ¬ (isMediaContent mediaType = true ∧ hasStructuredSuffix mediaType = true) := by
  rw [← structured_binary_iff]
  constructor
  · rintro ⟨single, -, -, -⟩ ⟨binary, json | xml⟩
    · simp [binary, json, List.count_cons] at single
    · simp [binary, xml, List.count_cons] at single
      omega
  · intro apart
    refine ⟨single_of_apart apart, fun family text schema => ?_,
      fun json value schema => encodeBody_of_json json value schema,
      fun xml value schema => encodeBody_of_xml xml value schema⟩
    obtain ⟨json, xml⟩ := unstructured_of_apart apart family
    exact encodeBody_of_unstructured json xml text schema

/-- A vector image is XML and binary at once, and a string for it is written as XML. -/
theorem svg_not_apart :
    isXmlMediaType "image/svg+xml" = true ∧ isBinaryMediaType "image/svg+xml" = true ∧
      encodeBody "image/svg+xml" (.string "raw") none = "<root>raw</root>" ∧
      ¬ FamilyApart "image/svg+xml" := by
  have xml : isXmlMediaType "image/svg+xml" = true := by decide
  have binary : isBinaryMediaType "image/svg+xml" = true := by decide
  refine ⟨xml, binary, by rw [encodeBody_of_xml xml]; decide, ?_⟩
  rintro ⟨single, -, -, -⟩
  simp [binary, xml, List.count_cons] at single
  omega

end SpecMock.Runtime
