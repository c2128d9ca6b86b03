import SpecMock.Runtime.Handler

/-!
# Bodies on the wire

A mocked response is rendered by its media type: JSON and XML types have
encoders of their own, every other type carries a text as it is.
-/

namespace SpecMock.Runtime

open SpecMock.Library SpecMock.Core

/-- The media type in lower case, without its parameters. -/
def normalizeMediaType (raw : String) : String :=
  asciiLowercase (Text.trim ((Text.pieces ';' raw).headD raw))

def endsWith (ending text : String) : Bool := decide (ending.toList <:+ text.toList)

def isJsonMediaType (mediaType : String) : Bool :=
  let normalized := normalizeMediaType mediaType
  normalized == "application/json" || endsWith "+json" normalized

def isXmlMediaType (mediaType : String) : Bool :=
  let normalized := normalizeMediaType mediaType
  normalized == "text/xml" || endsWith "+xml" normalized || normalized == "application/xml" ||
    normalized == "application/xhtml+xml"

def startsWith (start text : String) : Bool := decide (start.toList <+: text.toList)

/-- A payload that is text, without a structure of its own. -/
def isTextMediaType (mediaType : String) : Bool :=
  let normalized := normalizeMediaType mediaType
  if isJsonMediaType mediaType || isXmlMediaType mediaType then false
  else
    startsWith "text/" normalized ||
      decide (normalized ∈ ["application/javascript", "application/x-javascript",
        "application/ecmascript", "application/x-www-form-urlencoded", "application/yaml",
        "application/x-yaml"])

/-- Images, sound, video, archives and other opaque payloads. -/
def isBinaryMediaType (mediaType : String) : Bool :=
  let normalized := normalizeMediaType mediaType
  startsWith "image/" normalized || startsWith "audio/" normalized ||
    startsWith "video/" normalized ||
      decide (normalized ∈ ["application/octet-stream", "application/pdf", "application/zip",
        "application/gzip"])

/-- The root element of a schema: its `xml.name`, else its `title`. -/
def xmlRootName (schema : Option Value) : String :=
  let text := fun value : Value => match value with
    | .string text => some text
    | _ => none
  match schema with
  | none => "root"
  | some schema =>
      (((schema.get "xml").bind fun xml => xml.get "name").bind text).getD
        (((schema.get "title").bind text).getD "root")

def isAsciiAlphabetic (char : Char) : Bool :=
  ('a' ≤ char && char ≤ 'z') || ('A' ≤ char && char ≤ 'Z')

/-- One character of an element name; the first one kept is a letter or an underscore. -/
def sanitizeXmlChar (name : List Char) (char : Char) : List Char :=
  if name = [] then if isAsciiAlphabetic char || char == '_' then [char] else []
  else if isAsciiAlphabetic char || char.isDigit || char == '_' || char == '-' || char == '.' then
    name ++ [char]
  else name

/-- The key as the name of an element. -/
def sanitizeXmlName (raw : String) : String :=
  match raw.toList.foldl sanitizeXmlChar [] with
  | [] => "_"
  | name => String.ofList name

def escapeXmlChar (char : Char) : List Char :=
  if char = '&' then "&amp;".toList
  else if char = '<' then "&lt;".toList
  else if char = '>' then "&gt;".toList
  else if char = '"' then "&quot;".toList
  else if char = '\'' then "&apos;".toList
  else [char]

def escapeXmlText (text : String) : String := String.ofList (text.toList.flatMap escapeXmlChar)

/-- An element with its content. -/
def xmlElement (name content : String) : String :=
  "<" ++ name ++ ">" ++ content ++ "</" ++ name ++ ">"

mutual

/-- What stands between the tags of an element. -/
def xmlContent : Value → String
  | .object members => xmlMembers members
  | .array items => xmlItems items
  | .string text => escapeXmlText text
  | .null => ""
  | .bool value => escapeXmlText (Value.toText (.bool value))
  | .number value => escapeXmlText (Value.toText (.number value))

def xmlMembers : List (String × Value) → String
  | [] => ""
  | (key, nested) :: rest => xmlElement (sanitizeXmlName key) (xmlContent nested) ++ xmlMembers rest

def xmlItems : List Value → String
  | [] => ""
  | item :: rest => xmlElement "item" (xmlContent item) ++ xmlItems rest

end

def jsonToXml (rootName : String) (value : Value) : String :=
  xmlElement (sanitizeXmlName rootName) (xmlContent value)

/-- The text whose bytes are the payload for a value. -/
def encodeBody (mediaType : String) (value : Value) (schema : Option Value) : String :=
  if isJsonMediaType mediaType then value.toText
  else if isXmlMediaType mediaType then jsonToXml (xmlRootName schema) value
  else
    match value with
    | .string text => text
    | .null => ""
    | other => other.toText

/-- Which names and values the HTTP library takes for headers. -/
structure HeaderRules where
  validName : String → Bool
  validValue : String → Bool

/-- What is sent to the client. -/
structure HttpAnswer where
  status : Nat
  headers : List (String × String)
  /-- The text whose bytes are the body. -/
  body : String

/-- The payload of a mocked response; without a body or a media type it is empty. -/
def MockHttpResponse.payload (mock : MockHttpResponse) : String :=
  match mock.body, mock.mediaType with
  | some body, some mediaType => encodeBody mediaType body mock.schema
  | _, _ => ""

/-- Render a mocked response; a status that is no HTTP status becomes 200. -/
def buildMockResponse (rules : HeaderRules) (mock : MockHttpResponse) : HttpAnswer :=
  let declared := (mock.headers.filter fun header =>
    rules.validName header.1 && rules.validValue header.2).map fun header =>
      (asciiLowercase header.1, header.2)
  { status := if 100 ≤ mock.status ∧ mock.status ≤ 999 then mock.status else 200
    headers := match mock.mediaType with
      | none => declared
      | some mediaType => (declared.filter fun header => header.1 != "content-type") ++
          [("content-type", if rules.validValue mediaType then mediaType else "application/json")]
    body := mock.payload }

example : encodeBody "application/xml" (.object [("name", .string "Rex & Co")])
    (some (.object [("xml", .object [("name", .string "Pet")])])) =
      "<Pet><name>Rex &amp; Co</name></Pet>" := by decide

end SpecMock.Runtime
