import SpecMock.Core.Pointers
import SpecMock.Library.Escapes
import SpecMock.Runtime.GrpcCall
import SpecMock.Runtime.ProblemDetails

/-!
# Trailers of failed calls

A call that fails is answered with trailers: its status, the characters of its
message that can be sent, a status message in base64 and, where a header can
hold it, a document of details.  From the trailers of a failure of the scenarios
a client reads that failure again.
-/

namespace SpecMock.Runtime

open SpecMock.Library SpecMock.Core

/-- Letters, digits, hyphens and underscores stay; blanks are escaped, all else is left out. -/
def sanitizeGrpcChar (char : Char) : List Char :=
  if char.isAlphanum || char == '-' || char == '_' then [char]
  else if char = ' ' then "%20".toList
  else []

def sanitizeGrpcMessage (message : String) : String :=
  String.ofList (message.toList.flatMap sanitizeGrpcChar)

/-- The path of a field with dots, from a JSON pointer. -/
def pointerToFieldPath (pointer : String) : String :=
  if pointer = "" ∨ pointer = "/" then "body"
  else
    ".".intercalate ((Text.pieces '/' (String.ofList
      (pointer.toList.dropWhile fun char => char == '/'))).map unescapeSegment)

structure FieldViolation where
  field : String
  description : String
  deriving DecidableEq

def fieldViolation (item : Value) : FieldViolation where
  field := pointerToFieldPath (((item.get "instance_pointer").bind Value.asStr).getD "/")
  description := ((item.get "message").bind Value.asStr).getD "request validation failed"

def extractFieldViolations (details : Value) : List FieldViolation :=
  (((details.get "errors").bind Value.asArray).getD []).map fieldViolation

/-- A message of any type, with the type as a URL. -/
structure AnyMessage where
  typeUrl : String
  value : List UInt8
  deriving DecidableEq

structure GoogleRpcStatus where
  code : Nat
  message : String
  details : List AnyMessage
  deriving DecidableEq

/-- What the server takes from libraries to send a status; a status is sent in visible ASCII. -/
structure StatusEncoding where
  encodeBadRequest : List FieldViolation → List UInt8
  encodeStatus : GoogleRpcStatus → List UInt8
  base64 : List UInt8 → String
  ascii : ∀ bytes, ∀ char ∈ (base64 bytes).toList, 32 ≤ char.toNat ∧ char.toNat < 127

/-- Trailers by name, each name once. -/
abbrev Trailers := List (String × String)

section Errors

variable (encoding : StatusEncoding) (rules : HeaderRules)

def statusDetails (code : Nat) (message : String) (details : Option Value) : GoogleRpcStatus where
  code
  message
  details := match details with
    | none => []
    | some details =>
        match extractFieldViolations details with
        | [] =>
            [⟨"type.googleapis.com/specmock.ValidationErrors", Utf8.encode details.toText.toList⟩]
        | violations =>
            [⟨"type.googleapis.com/google.rpc.BadRequest", encoding.encodeBadRequest violations⟩]

def buildGrpcStatusDetailsBin (code : Nat) (message : String) (details : Option Value) : String :=
  encoding.base64 (encoding.encodeStatus (statusDetails encoding code message details))

/-- A trailer, unless its value cannot be that of a header. -/
def trailer (name value : String) : Trailers :=
  if rules.validValue value then [(name, value)] else []

def errorTrailers (code : Nat) (message : String) (details : Option Value) : Trailers :=
  trailer rules "grpc-status" (toString code) ++
    trailer rules "grpc-message" (sanitizeGrpcMessage message) ++
    trailer rules "grpc-status-details-bin"
      (buildGrpcStatusDetailsBin encoding code message details) ++
    match details with
    | none => []
    | some details => trailer rules "x-specmock-errors" details.toText

end Errors

/-- Whatever consists of visible ASCII can be the value of a header. -/
def HeaderRules.TakesAscii (rules : HeaderRules) : Prop :=
  ∀ text : String, (∀ char ∈ text.toList, 32 ≤ char.toNat ∧ char.toNat < 127) →
    rules.validValue text = true

theorem ascii_of_isDigit {char : Char} (digit : char.isDigit = true) :
    32 ≤ char.toNat ∧ char.toNat < 127 := by
  obtain ⟨low, high⟩ := Char.isDigit_iff_toNat.mp digit
  change 48 ≤ char.toNat at low
  change char.toNat ≤ 57 at high
  omega

theorem ascii_toString (number : Nat) :
    ∀ char ∈ (toString number).toList, 32 ≤ char.toNat ∧ char.toNat < 127 :=
  fun char member => ascii_of_isDigit (nat_chars number char member)

/-- The characters of a message that are sent. -/
def isSentChar (char : Char) : Bool :=
  char.isAlphanum || char == '-' || char == '_' || char == ' '

theorem ascii_of_isAlphanum {char : Char} (alphanum : char.isAlphanum = true) :
    48 ≤ char.toNat ∧ char.toNat < 123 := by
  unfold Char.isAlphanum Char.isAlpha Char.isUpper Char.isLower Char.isDigit at alphanum
  simp only [Bool.or_eq_true, Bool.and_eq_true, decide_eq_true_eq, ge_iff_le,
    UInt32.le_iff_toNat_le] at alphanum
  change 48 ≤ char.val.toNat ∧ char.val.toNat < 123
  rcases alphanum with (⟨low, high⟩ | ⟨low, high⟩) | ⟨low, high⟩
  · change 65 ≤ _ at low
    change _ ≤ 90 at high
    omega
  · change 97 ≤ _ at low
    change _ ≤ 122 at high
    omega
  · change 48 ≤ _ at low
    change _ ≤ 57 at high
    omega

theorem ascii_sanitizeGrpcChar (char : Char) :
    ∀ sent ∈ sanitizeGrpcChar char, 32 ≤ sent.toNat ∧ sent.toNat < 127 := by
  intro sent member
  unfold sanitizeGrpcChar at member
  split at member
  next kept =>
    obtain rfl := List.mem_singleton.mp member
    rw [Bool.or_eq_true, Bool.or_eq_true] at kept
    rcases kept with (alphanum | hyphen) | underscore
    · have bounds := ascii_of_isAlphanum alphanum
      omega
    · rw [eq_of_beq hyphen]
      decide
    · rw [eq_of_beq underscore]
      decide
  · split at member
    · have ascii :
        "%20".toList.all (fun sent => 32 ≤ sent.toNat && sent.toNat < 127) = true := rfl
      simpa using List.all_eq_true.mp ascii sent member
    · cases member

theorem ascii_sanitizeGrpcMessage (message : String) :
    ∀ sent ∈ (sanitizeGrpcMessage message).toList, 32 ≤ sent.toNat ∧ sent.toNat < 127 := by
  intro sent member
  rw [sanitizeGrpcMessage, String.toList_ofList] at member
  obtain ⟨char, _, inside⟩ := List.mem_flatMap.mp member
  exact ascii_sanitizeGrpcChar char sent inside

/-- Undoing the escapes gives the characters that are sent, and no others. -/
theorem unescape_sanitizeGrpcMessage (message : String) :
    Escapes.unescape Escapes.hexPair (Utf8.encode (sanitizeGrpcMessage message).toList) =
      Utf8.encode (message.toList.filter isSentChar) := by
  rw [sanitizeGrpcMessage, String.toList_ofList]
  induction message.toList with
  | nil => rfl
  | cons char rest ih =>
      rw [List.flatMap_cons, Utf8.encode_append]
      by_cases plain : (char.isAlphanum || char == '-' || char == '_') = true
      · have self : sanitizeGrpcChar char = [char] := if_pos plain
        have sent : isSentChar char = true := by simp only [isSentChar, plain, Bool.true_or]
        obtain ⟨_, small⟩ := ascii_sanitizeGrpcChar char char (by simp [self])
        have byte : Utf8.encode [char] = [UInt8.ofNat char.toNat] := by
          rw [Utf8.encode_cons, Utf8.utf8EncodeChar_of_ascii (by omega)]
          rfl
        have noPercent : UInt8.ofNat char.toNat ≠ 37 := by
          intro percent
          have code := congrArg UInt8.toNat percent
          rw [UInt8.toNat_ofNat', Nat.mod_eq_of_lt (by omega)] at code
          obtain rfl : char = '%' := Char.toNat_inj.mp code
          exact absurd plain (by decide)
        rw [self, byte, List.singleton_append, Escapes.unescape_cons_of_ne noPercent, ih,
          List.filter_cons_of_pos sent, Utf8.encode_cons, Utf8.utf8EncodeChar_of_ascii (by omega)]
        rfl
      · by_cases blank : char = ' '
        · subst blank
          have escaped : Utf8.encode (sanitizeGrpcChar ' ') = [37, 50, 48] := by decide
          have read : Escapes.hexPair 50 48 = some 32 := by decide
          change Escapes.unescape _ (Utf8.encode (sanitizeGrpcChar ' ') ++ _) = _
          rw [escaped]
          change Escapes.unescape _
            (37 :: 50 :: 48 :: Utf8.encode (rest.flatMap sanitizeGrpcChar)) = _
          rw [Escapes.unescape_of_some read, ih]
          rfl
        · have nothing : sanitizeGrpcChar char = [] := by
            rw [sanitizeGrpcChar, if_neg plain, if_neg blank]
          have unsent : ¬ isSentChar char = true := by
            unfold isSentChar
            rw [Bool.or_eq_true, beq_iff_eq]
            exact not_or.mpr ⟨plain, blank⟩
          rw [nothing, List.filter_cons_of_neg unsent]
          exact ih

theorem trailer_of_ascii {rules : HeaderRules} (takes : rules.TakesAscii) (name value : String)
    (ascii : ∀ char ∈ value.toList, 32 ≤ char.toNat ∧ char.toNat < 127) :
    trailer rules name value = [(name, value)] :=
  if_pos (takes value ascii)

/-- The trailers of a failure; what cannot be left out stands in front. -/
theorem errorTrailers_eq {encoding : StatusEncoding} {rules : HeaderRules}
    (takes : rules.TakesAscii) (code : Nat) (message : String) (details : Option Value) :
    errorTrailers encoding rules code message details =
      [("grpc-status", toString code), ("grpc-message", sanitizeGrpcMessage message),
        ("grpc-status-details-bin", buildGrpcStatusDetailsBin encoding code message details)] ++
      match details with
      | none => []
      | some details => trailer rules "x-specmock-errors" details.toText := by
  unfold errorTrailers
  rw [trailer_of_ascii takes _ _ (ascii_toString code),
    trailer_of_ascii takes _ _ (ascii_sanitizeGrpcMessage message),
    trailer_of_ascii takes _ (buildGrpcStatusDetailsBin encoding code message details)
      (encoding.ascii _)]
  rfl

/-- What is put under a name by the extensions of a failure, or by the violation. -/
theorem lookup_failureJson (failure : StatefulFailure) (name : String) :
    (members (failureJson failure)).lookup name =
      (failure.extensions.lookup name).or
        ((members (violation "/" "scenario" failure.detail)).lookup name) :=
  SortedEntries.lookup_foldl_insert failure.extensions_distinct _ name

theorem mem_foldl_insert {pairs entries : List (String × Value)} {entry : String × Value}
    (member : entry ∈ pairs.foldl (fun payload pair =>
      SortedEntries.insert pair.1 pair.2 payload) entries) : entry ∈ pairs ∨ entry ∈ entries := by
  induction pairs generalizing entries with
  | nil => exact .inr member
  | cons pair rest ih =>
      rcases ih member with later | inserted
      · exact .inl (List.mem_cons_of_mem _ later)
      · rcases SortedEntries.mem_insert inserted with rfl | earlier
        · exact .inl List.mem_cons_self
        · exact .inr earlier

theorem spelled_violation (pointer keyword message : String) :
    (violation pointer keyword message).Spelled := by
  refine .object fun outer inside => ?_
  obtain rfl := List.mem_singleton.mp inside
  refine .array fun item listed => ?_
  obtain rfl := List.mem_singleton.mp listed
  refine .object fun member held => ?_
  simp only [List.mem_cons, List.not_mem_nil, or_false] at held
  rcases held with rfl | rfl | rfl | rfl
  · exact .string _
  · exact .string _
  · exact .string _
  · exact .string _

theorem spelled_failureJson (failure : StatefulFailure) : (failureJson failure).Spelled := by
  refine .object fun member inside => ?_
  rcases mem_foldl_insert inside with extension | written
  · exact (failure.extensions_named extension).2
  · cases spelled_violation "/" "scenario" failure.detail with
    | object each => exact each member written

/-- The only violation of a failure is of the whole body, and says what the failure says. -/
theorem extractFieldViolations_failureJson (failure : StatefulFailure) :
    extractFieldViolations (failureJson failure) = [⟨"body", failure.detail⟩] := by
  have apart : "errors" ∉ StatefulFailure.extensionNames := by decide
  have unnamed : failure.extensions.lookup "errors" = none := by
    rw [List.lookup_eq_none_iff]
    intro extension member
    have other : extension.1 ≠ "errors" := fun same =>
      apart (same ▸ (failure.extensions_named member).1)
    simpa using other.symm
  have found : (failureJson failure).get "errors" =
      (members (violation "/" "scenario" failure.detail)).lookup "errors" := by
    refine (lookup_failureJson failure "errors").trans ?_
    rw [unnamed, Option.none_or]
  rw [extractFieldViolations, found]
  rfl

/-- The status of the failure that a code stands for. -/
def statusForCode (code : Nat) : Nat :=
  if code = 5 then 404 else if code = 6 then 409 else if code = 8 then 429 else 500

theorem statusForCode_grpcCodeFor (failure : StatefulFailure) :
    statusForCode (grpcCodeFor failure.status) = failure.status := by
  have same : ∀ status ∈ [404, 409, 429, 500], statusForCode (grpcCodeFor status) = status := by
    decide
  exact same _ failure.status_mem

/-- The trailers tell a client which failure there was. -/
structure Reports (encoding : StatusEncoding) (rules : HeaderRules) (failure : StatefulFailure)
    (trailers : Trailers) : Prop where
  status : trailers.lookup "grpc-status" = some (toString (grpcCodeFor failure.status))
  message : ∃ sent, trailers.lookup "grpc-message" = some sent ∧
    Escapes.unescape Escapes.hexPair (Utf8.encode sent.toList) =
      Utf8.encode (failure.detail.toList.filter isSentChar)
  details : trailers.lookup "grpc-status-details-bin" =
    some (encoding.base64 (encoding.encodeStatus
      ⟨grpcCodeFor failure.status, failure.detail,
        [⟨"type.googleapis.com/google.rpc.BadRequest",
          encoding.encodeBadRequest [⟨"body", failure.detail⟩]⟩]⟩))
  sent : trailers.lookup "x-specmock-errors" =
    if rules.validValue (failureJson failure).toText then some (failureJson failure).toText
    else none
  read : ∀ document : Value, document.Spelled →
    trailers.lookup "x-specmock-errors" = some document.toText →
      StatefulFailure.ofReport (statusForCode (grpcCodeFor failure.status)) (members document) =
        some failure.withoutListing

/-- The document of a failure is read as the failure. -/
theorem ofReport_failureJson (failure : StatefulFailure) :
    StatefulFailure.ofReport (statusForCode (grpcCodeFor failure.status))
      (members (failureJson failure)) = some failure.withoutListing := by
  have apart : ∀ name ∈ StatefulFailure.extensionNames, name ≠ "errors" := by decide
  rw [statusForCode_grpcCodeFor]
  refine failure.ofReport_of_extensions fun name listed => ?_
  have absent : (members (violation "/" "scenario" failure.detail)).lookup name = none := by
    change List.lookup name [("errors", _)] = none
    rw [SortedEntries.lookup_cons_eq, if_neg (apart name listed), List.lookup_nil]
  rw [lookup_failureJson, absent, Option.or_none]

theorem reports_errorTrailers {encoding : StatusEncoding} {rules : HeaderRules}
    (takes : rules.TakesAscii) (failure : StatefulFailure) :
    Reports encoding rules failure (errorTrailers encoding rules (grpcCodeFor failure.status)
      failure.detail (some (failureJson failure))) := by
  rw [errorTrailers_eq takes]
  have sent : List.lookup "x-specmock-errors"
      (trailer rules "x-specmock-errors" (failureJson failure).toText) =
        if rules.validValue (failureJson failure).toText then some (failureJson failure).toText
        else none := by
    unfold trailer
    split
    · rfl
    · rfl
  constructor
  case status => rfl
  case message => exact ⟨_, rfl, unescape_sanitizeGrpcMessage failure.detail⟩
  case details =>
    change some (buildGrpcStatusDetailsBin encoding _ _ _) = _
    rw [buildGrpcStatusDetailsBin, statusDetails, extractFieldViolations_failureJson]
  case sent => exact sent
  case read =>
    intro document spelled found
    have text : (failureJson failure).toText = document.toText := by
      have shown := sent.symm.trans found
      split at shown
      · exact Option.some.inj shown
      · cases shown
    rw [← toText_injective (spelled_failureJson failure) spelled text]
    exact ofReport_failureJson failure

/-- A length below `2 ^ 14`, in groups of seven bits. -/
def lengthBytes (length : Nat) : List UInt8 :=
  if length < 128 then [.ofNat length] else [.ofNat (length % 128 + 128), .ofNat (length / 128)]

def messageField (number : Nat) (bytes : List UInt8) : List UInt8 :=
  .ofNat (8 * number + 2) :: lengthBytes bytes.length ++ bytes

/-- A field of a text or of bytes is left out when it is empty. -/
def bytesField (number : Nat) (bytes : List UInt8) : List UInt8 :=
  if bytes = [] then [] else messageField number bytes

def textField (number : Nat) (text : String) : List UInt8 :=
  bytesField number (Utf8.encode text.toList)

def base64Digits : List Char :=
  "ABCDEFGHIJKLMNOPQRSTUVWXYZabcdefghijklmnopqrstuvwxyz0123456789+/".toList

def base64Digit (value : Nat) : Char := base64Digits.getD value '='

/-- Three bytes become four digits; what is missing at the end is filled up. -/
def base64Chars : List UInt8 → List Char
  | [] => []
  | [first] => [base64Digit (first.toNat / 4), base64Digit (first.toNat % 4 * 16), '=', '=']
  | [first, second] =>
      [base64Digit (first.toNat / 4), base64Digit (first.toNat % 4 * 16 + second.toNat / 16),
        base64Digit (second.toNat % 16 * 4), '=']
  | first :: second :: third :: rest =>
      base64Digit (first.toNat / 4) ::
        base64Digit (first.toNat % 4 * 16 + second.toNat / 16) ::
          base64Digit (second.toNat % 16 * 4 + third.toNat / 64) ::
            base64Digit (third.toNat % 64) :: base64Chars rest

theorem ascii_base64Digit (value : Nat) :
    32 ≤ (base64Digit value).toNat ∧ (base64Digit value).toNat < 127 := by
  have digits :
    base64Digits.all (fun digit => 32 ≤ digit.toNat && digit.toNat < 127) = true := rfl
  rw [base64Digit, List.getD_eq_getElem?_getD]
  cases found : base64Digits[value]? with
  | none =>
      change 32 ≤ '='.toNat ∧ '='.toNat < 127
      decide
  | some char => simpa using List.all_eq_true.mp digits char (List.mem_of_getElem? found)

theorem ascii_base64Chars (bytes : List UInt8) :
    ∀ char ∈ base64Chars bytes, 32 ≤ char.toNat ∧ char.toNat < 127 := by
  induction bytes using base64Chars.induct with
  | case1 => exact nofun
  | case2 first =>
      simp [base64Chars, ascii_base64Digit]
  | case3 first second =>
      simp [base64Chars, ascii_base64Digit]
  | case4 first second third rest ih =>
      simpa [base64Chars, ascii_base64Digit] using ih

/-- Statuses as messages in base64. -/
def widgetEncoding : StatusEncoding where
  encodeBadRequest violations := violations.flatMap fun violation =>
    messageField 1 (textField 1 violation.field ++ textField 2 violation.description)
  encodeStatus status :=
    (if status.code = 0 then [] else [8, .ofNat status.code]) ++ textField 2 status.message ++
      status.details.flatMap fun detail =>
        messageField 3 (textField 1 detail.typeUrl ++ bytesField 2 detail.value)
  base64 bytes := String.ofList (base64Chars bytes)
  ascii bytes := by
    rw [String.toList_ofList]
    exact ascii_base64Chars bytes

example : widgetEncoding.base64 [77, 97, 110, 77] = "TWFuTQ==" := by decide

/-- Values of headers have no control characters. -/
def textRules : HeaderRules where
  validName name := name.toList.all fun char => char.isAlphanum || char == '-'
  validValue value := value.toList.all fun char => 32 ≤ char.toNat && char.toNat != 127

theorem textRules_takesAscii : textRules.TakesAscii := by
  intro text ascii
  refine List.all_eq_true.mpr fun char member => ?_
  obtain ⟨low, high⟩ := ascii char member
  simp only [Bool.and_eq_true, decide_eq_true_eq, bne_iff_ne]
  omega

end SpecMock.Runtime
