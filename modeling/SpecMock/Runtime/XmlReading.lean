import SpecMock.Library.Markup
import SpecMock.Runtime.Media

/-!
# Reading XML bodies

An XML body is a document of the grammar of elements and text.  Whatever the
keys and texts of the value are, a reader finds one element for each of its
parts, under the sanitized names and in the same order.
-/

namespace SpecMock.Runtime

open SpecMock.Library SpecMock.Core Markup

/-- The text of a value that is neither an object nor an array. -/
def scalarText : Value → String
  | .string text => text
  | .null => ""
  | other => other.toText

/-- One more character keeps what has been taken over a name, or begins one. -/
theorem isName_sanitizeXmlChar {name : List Char} (valid : name = [] ∨ isName name = true)
    (char : Char) : sanitizeXmlChar name char = [] ∨ isName (sanitizeXmlChar name char) = true := by
  unfold sanitizeXmlChar
  rcases valid with rfl | valid
  · rw [if_pos rfl]
    split
    next start =>
      refine .inr ?_
      rw [isName, List.all_nil, Bool.and_true]
      exact start
    next => exact .inl rfl
  · have taken : name ≠ [] := by
      rintro rfl
      cases valid
    rw [if_neg taken]
    split
    next inside =>
      refine .inr ?_
      cases name with
      | nil => exact absurd rfl taken
      | cons first rest =>
          simp only [isName, Bool.and_eq_true] at valid
          simp only [List.cons_append, isName, List.all_append, Bool.and_eq_true, List.all_cons,
            List.all_nil, Bool.and_true]
          exact ⟨valid.1, valid.2, inside⟩
    next => exact .inr valid

theorem isName_foldl_sanitizeXmlChar (raw : List Char) {name : List Char}
    (valid : name = [] ∨ isName name = true) :
    raw.foldl sanitizeXmlChar name = [] ∨ isName (raw.foldl sanitizeXmlChar name) = true := by
  induction raw generalizing name with
  | nil => exact valid
  | cons char rest ih => exact ih (isName_sanitizeXmlChar valid char)

/-- Every key becomes the name of an element. -/
theorem isName_sanitizeXmlName (raw : String) : isName (sanitizeXmlName raw).toList = true := by
  unfold sanitizeXmlName
  rcases isName_foldl_sanitizeXmlChar raw.toList (.inl rfl) with empty | valid
  · rw [empty]
    decide
  · split
    next => decide
    next => rwa [String.toList_ofList]

def sanitizedName (raw : String) : Name :=
  ⟨(sanitizeXmlName raw).toList, isName_sanitizeXmlName raw⟩

/-- The name of the elements of an array. -/
def itemName : Name := ⟨"item".toList, by decide⟩

mutual

/-- The element that a value should be read as. -/
def xmlTree (name : Name) : Value → Element
  | .object members => .ofChildren name (memberTrees members)
  | .array items => .ofChildren name (itemTrees items)
  | .string text => .leaf name (scalarText (.string text)).toList
  | .null => .leaf name (scalarText .null).toList
  | .bool value => .leaf name (scalarText (.bool value)).toList
  | .number value => .leaf name (scalarText (.number value)).toList

def memberTrees : List (String × Value) → List Element
  | [] => []
  | (key, nested) :: rest => xmlTree (sanitizedName key) nested :: memberTrees rest

def itemTrees : List Value → List Element
  | [] => []
  | item :: rest => xmlTree itemName item :: itemTrees rest

end

theorem textCode_escapeXmlChar (char : Char) {code text : List Char} (rest : TextCode code text) :
    TextCode (escapeXmlChar char ++ code) (char :: text) := by
  unfold escapeXmlChar
  split
  next same =>
    exact same ▸ TextCode.entity (show ("amp".toList, _) ∈ entities by decide) rest
  next notEscape =>
    split
    next same =>
      exact same ▸ TextCode.entity (show ("lt".toList, _) ∈ entities by decide) rest
    next notOpen =>
      split
      next same =>
        exact same ▸ TextCode.entity (show ("gt".toList, _) ∈ entities by decide) rest
      next =>
        split
        next same =>
          exact same ▸ TextCode.entity (show ("quot".toList, _) ∈ entities by decide) rest
        next =>
          split
          next same =>
            exact same ▸ TextCode.entity (show ("apos".toList, _) ∈ entities by decide) rest
          next => exact .plain notOpen notEscape rest

theorem textCode_escapeXmlText (text : String) :
    TextCode (escapeXmlText text).toList text.toList := by
  rw [escapeXmlText, String.toList_ofList]
  induction text.toList with
  | nil => exact .nil
  | cons char rest ih => exact textCode_escapeXmlChar char ih

/-- The string of an element as the grammar has it. -/
theorem toList_xmlElement (name : Name) (content : String) (others : List Char) :
    (xmlElement (String.ofList name.1) content).toList ++ others =
      openTag name ++ (content.toList ++ (closeTag name ++ others)) := by
  simp [xmlElement, openTag, closeTag]

theorem forest_scalar (name : Name) (value : Value)
    (content : xmlContent value = escapeXmlText (scalarText value)) {others : List Char}
    {elements : List Element} (behind : Forest others elements) :
    Forest ((xmlElement (String.ofList name.1) (xmlContent value)).toList ++ others)
      (.leaf name (scalarText value).toList :: elements) := by
  rw [toList_xmlElement, content]
  exact .leaf name (textCode_escapeXmlText _) behind

/-- Elements inside an element; without any, it holds the empty text. -/
theorem forest_children (name : Name) {content : String} {children : List Element}
    (inside : Forest content.toList children) {others : List Char} {elements : List Element}
    (behind : Forest others elements) :
    Forest ((xmlElement (String.ofList name.1) content).toList ++ others)
      (.ofChildren name children :: elements) := by
  rw [toList_xmlElement]
  generalize content.toList = chars at inside
  cases children with
  | nil =>
      cases inside
      exact .leaf name .nil behind
  | cons first rest => exact .node name inside behind

/-- An element for a value in front of other elements. -/
def Derivable (value : Value) : Prop :=
  ∀ (name : Name) {others : List Char} {elements : List Element}, Forest others elements →
    Forest ((xmlElement (String.ofList name.1) (xmlContent value)).toList ++ others)
      (xmlTree name value :: elements)

theorem forest_memberTrees {members : List (String × Value)}
    (each : ∀ member ∈ members, Derivable member.2) :
    Forest (xmlMembers members).toList (memberTrees members) := by
  induction members with
  | nil => exact .nil
  | cons member rest ih =>
      obtain ⟨key, nested⟩ := member
      obtain ⟨first, others⟩ := List.forall_mem_cons.mp each
      rw [xmlMembers, memberTrees, String.toList_append]
      have element := first (sanitizedName key) (ih others)
      rwa [sanitizedName, String.ofList_toList] at element

theorem forest_itemTrees {items : List Value} (each : ∀ item ∈ items, Derivable item) :
    Forest (xmlItems items).toList (itemTrees items) := by
  induction items with
  | nil => exact .nil
  | cons item rest ih =>
      obtain ⟨first, others⟩ := List.forall_mem_cons.mp each
      rw [xmlItems, itemTrees, String.toList_append]
      exact first itemName (ih others)

theorem derivable (value : Value) : Derivable value := by
  induction value using Value.nestedInduction with
  | scalar value noArray noObject =>
      intro name others elements behind
      cases value with
      | array items => exact absurd rfl (noArray items)
      | object members => exact absurd rfl (noObject members)
      | null => exact forest_scalar name .null rfl behind
      | bool flag => exact forest_scalar name (.bool flag) rfl behind
      | number number => exact forest_scalar name (.number number) rfl behind
      | string text => exact forest_scalar name (.string text) rfl behind
  | array items each =>
      intro name others elements behind
      rw [xmlContent, xmlTree]
      exact forest_children name (forest_itemTrees each) behind
  | object members each =>
      intro name others elements behind
      rw [xmlContent, xmlTree]
      exact forest_children name (forest_memberTrees each) behind

theorem document_jsonToXml (rootName : String) (value : Value) :
    Document (jsonToXml rootName value).toList (xmlTree (sanitizedName rootName) value) := by
  have element := derivable value (sanitizedName rootName) .nil
  rwa [List.append_nil, sanitizedName, String.ofList_toList] at element

/--
A value written as XML is read completely, as the element of its root name
with a child for each member or item and the text of each scalar; the grammar
has no other element for it.
-/
theorem readDocument_jsonToXml (rootName : String) (value : Value) :
    readDocument (jsonToXml rootName value).toList =
        some (xmlTree (sanitizedName rootName) value) ∧
      ∀ element, Document (jsonToXml rootName value).toList element →
        element = xmlTree (sanitizedName rootName) value :=
  ⟨readDocument_eq_some_iff.mpr (document_jsonToXml rootName value),
    fun _ document => document.unique (document_jsonToXml rootName value)⟩

end SpecMock.Runtime
