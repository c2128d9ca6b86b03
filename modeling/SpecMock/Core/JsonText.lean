import SpecMock.Core.Json
import SpecMock.Library.Delimited
import SpecMock.Library.Text

/-!
# The text of a JSON value

The compact form of a value is put together from texts that are told apart
where they stop: a string ends with the first quote that is not escaped, a
number where no character of a number follows, an array or an object at its
bracket.  Two values therefore have one text only if they are equal, provided
that floating point numbers are written as such.
-/

namespace SpecMock.Core

open SpecMock.Library SelfDelimiting

/-- The character of an escape of two characters. -/
def namedEscape : Char → Option Char
  | '"' => some '"'
  | '\\' => some '\\'
  | 'b' => some '\x08'
  | 'f' => some '\x0c'
  | 'n' => some '\n'
  | 'r' => some '\r'
  | 't' => some '\t'
  | _ => none

def hexDigitValue (digit : Char) : Nat :=
  if digit.isDigit then digit.toNat - 48 else digit.toNat - 87

/-- The first character of a string, with what is behind it. -/
def readEscaped : List Char → Option (Char × List Char)
  | '\\' :: 'u' :: '0' :: '0' :: high :: low :: rest =>
      some (Char.ofNat (16 * hexDigitValue high + hexDigitValue low), rest)
  | '\\' :: code :: rest => (namedEscape code).map fun char => (char, rest)
  | char :: rest => some (char, rest)
  | [] => none

theorem hexPair_value : ∀ code < 32, ∃ high low, Value.hexPair code = [high, low] ∧
    Char.ofNat (16 * hexDigitValue high + hexDigitValue low) = Char.ofNat code := by
  intro code small
  refine ⟨_, _, rfl, ?_⟩
  revert code
  decide

theorem readEscaped_escapeChar (char : Char) (rest : List Char) :
    readEscaped (Value.escapeChar char ++ rest) = some (char, rest) := by
  unfold Value.escapeChar
  split
  iterate 7 rfl
  next noQuote noBackslash _ _ _ _ _ =>
    split
    next control =>
      obtain ⟨high, low, pair, same⟩ := hexPair_value char.toNat control
      rw [pair]
      change some (Char.ofNat _, rest) = _
      rw [same, Char.ofNat_toNat]
    · change readEscaped (char :: rest) = _
      unfold readEscaped
      split
      next here => exact absurd (List.cons.inj here).1 noBackslash
      next here => exact absurd (List.cons.inj here).1 noBackslash
      next here =>
          cases here
          rfl
      next here => cases here

theorem separated_escapeChar (char : Char) :
    Separated (fun _ => True) Value.escapeChar char :=
  separated_of_read readEscaped (readEscaped_escapeChar char) fun other _ =>
    readEscaped_escapeChar other

theorem escapeChar_head (char : Char) :
    ∃ symbol behind, Value.escapeChar char = symbol :: behind ∧ symbol ≠ '"' := by
  unfold Value.escapeChar
  split
  iterate 7 exact ⟨_, _, rfl, by decide⟩
  next noQuote _ _ _ _ _ _ =>
    split
    · exact ⟨_, _, rfl, by decide⟩
    · exact ⟨char, [], rfl, noQuote⟩

theorem quoted_toList (text : String) :
    (Value.quoted text).toList = '"' :: (text.toList.flatMap Value.escapeChar ++ ['"']) := by
  simp [Value.quoted]

/-- A string ends at the first quote that is not escaped. -/
theorem separated_quoted (text : String) :
    Separated (fun _ => True) (fun text : String => (Value.quoted text).toList) text := by
  intro other rest more _ same
  simp only [quoted_toList, List.cons_append, List.append_assoc, List.nil_append,
    List.cons.injEq, true_and] at same
  obtain ⟨chars, rests⟩ := eq_of_flatMap_stop (fun _ => True) (fun _ => True)
    (fun _ => trivial) (fun _ _ _ => trivial) (fun char _ => escapeChar_head char)
    (fun char _ => ⟨trivial, (separated_escapeChar char).delimited _⟩) (fun _ _ => trivial) same
  exact ⟨String.toList_injective chars, rests⟩

def isNumberChar (char : Char) : Bool :=
  char.isDigit || decide (char ∈ ['-', '+', '.', 'e', 'E'])

/-- The text of a floating point number has a fraction or an exponent. -/
structure IsFloatText (text : String) : Prop where
  spelled : ∀ char ∈ text.toList, isNumberChar char = true
  marked : '.' ∈ text.toList ∨ 'e' ∈ text.toList

/-- Every floating point number in the value is written as one. -/
inductive Value.Spelled : Value → Prop where
  | null : Spelled .null
  | bool (flag : Bool) : Spelled (.bool flag)
  | int (value : Int) : Spelled (.number (.int value))
  | float {text : String} (written : IsFloatText text) : Spelled (.number (.float text))
  | string (text : String) : Spelled (.string text)
  | array {items : List Value} (each : ∀ item ∈ items, Spelled item) : Spelled (.array items)
  | object {members : List (String × Value)} (each : ∀ member ∈ members, Spelled member.2) :
      Spelled (.object members)

theorem nat_chars (value : Nat) : ∀ char ∈ (toString value).toList, char.isDigit = true := by
  intro char member
  rw [show (toString value).toList = Nat.toDigits 10 value from Nat.toList_repr] at member
  exact Nat.isDigit_of_mem_toDigits (by decide) (by decide) member

theorem int_chars (value : Int) :
    ∀ char ∈ (toString value).toList, char.isDigit = true ∨ char = '-' := by
  intro char member
  cases value with
  | ofNat value => exact .inl (nat_chars value char member)
  | negSucc value =>
      change char ∈ ("-" ++ toString (value + 1)).toList at member
      rw [String.toList_append, List.mem_append] at member
      rcases member with sign | digit
      · exact .inr (List.mem_singleton.mp sign)
      · exact .inl (nat_chars _ char digit)

theorem int_isNumberChar (value : Int) :
    ∀ char ∈ (toString value).toList, isNumberChar char = true := by
  intro char member
  rcases int_chars value char member with digit | rfl
  · simp [isNumberChar, digit]
  · decide

theorem int_ne_nil (value : Int) : (toString value).toList ≠ [] := by
  cases value with
  | ofNat value =>
      rw [show (toString (Int.ofNat value)).toList = Nat.toDigits 10 value from Nat.toList_repr]
      exact Nat.toDigits_ne_nil
  | negSucc value =>
      change ("-" ++ toString (value + 1)).toList ≠ []
      simp

/-- No whole number is written like a floating point number. -/
theorem IsFloatText.ne_int {text : String} (written : IsFloatText text) (value : Int) :
    text ≠ toString value := by
  rintro rfl
  rcases written.marked with dot | exponent
  · rcases int_chars value _ dot with digit | sign
    · exact absurd digit (by decide)
    · exact absurd sign (by decide)
  · rcases int_chars value _ exponent with digit | sign
    · exact absurd digit (by decide)
    · exact absurd sign (by decide)

/-- What may follow a value: nothing, a comma or a closing bracket. -/
def MayFollow (rest : List Char) : Prop := ∀ char ∈ rest.head?, char = ',' ∨ char = ']' ∨ char = '}'

theorem MayFollow.breaks {rest : List Char} (may : MayFollow rest) : Breaks isNumberChar rest := by
  intro char first
  rcases may char first with rfl | rfl | rfl
  · decide
  · decide
  · decide

/-- The kinds of values, by the first character of their texts. -/
def leadKind : Char → Nat
  | 'n' => 0
  | 't' => 1
  | 'f' => 2
  | '"' => 3
  | '[' => 4
  | '{' => 5
  | _ => 6

def Value.leadKind : Value → Nat
  | .null => 0
  | .bool true => 1
  | .bool false => 2
  | .string _ => 3
  | .array _ => 4
  | .object _ => 5
  | .number _ => 6

theorem leadKind_of_isNumberChar {char : Char} (spelled : isNumberChar char = true) :
    leadKind char = 6 := by
  unfold leadKind
  split
  iterate 6 exact absurd spelled (by decide)
  rfl

theorem number_lead {text : String} (spelled : ∀ char ∈ text.toList, isNumberChar char = true)
    (nonempty : text.toList ≠ []) : ∃ char behind, text.toList = char :: behind ∧
      leadKind char = 6 := by
  obtain ⟨char, behind, same⟩ := List.exists_cons_of_ne_nil nonempty
  exact ⟨char, behind, same, leadKind_of_isNumberChar (spelled char (by simp [same]))⟩

theorem toText_lead {value : Value} (spelled : value.Spelled) :
    ∃ char behind, value.toText.toList = char :: behind ∧ leadKind char = value.leadKind := by
  cases spelled with
  | null => exact ⟨_, _, rfl, rfl⟩
  | bool flag => cases flag <;> exact ⟨_, _, rfl, rfl⟩
  | int value => exact number_lead (int_isNumberChar value) (int_ne_nil value)
  | float written =>
      refine number_lead written.spelled ?_
      rcases written.marked with dot | exponent
      · exact List.ne_nil_of_mem dot
      · exact List.ne_nil_of_mem exponent
  | string text => exact ⟨'"', _, quoted_toList text, rfl⟩
  | array each => exact ⟨'[', _, by simp only [Value.toText, String.toList_append]; rfl, rfl⟩
  | object each => exact ⟨'{', _, by simp only [Value.toText, String.toList_append]; rfl, rfl⟩

/-- A member of an object. -/
def memberChars (member : String × Value) : List Char :=
  (Value.quoted member.1).toList ++ ':' :: member.2.toText.toList

/-- The items behind the first one, each behind a comma. -/
theorem itemsText_cons (item : Value) (rest : List Value) :
    (Value.itemsText (item :: rest)).toList =
      item.toText.toList ++ rest.flatMap fun next => ',' :: next.toText.toList := by
  induction rest generalizing item with
  | nil => simp [Value.itemsText]
  | cons next rest ih => simp [Value.itemsText, ih next]

theorem membersText_cons (member : String × Value) (rest : List (String × Value)) :
    (Value.membersText (member :: rest)).toList =
      memberChars member ++ rest.flatMap fun next => ',' :: memberChars next := by
  induction rest generalizing member with
  | nil => simp [Value.membersText, memberChars]
  | cons next rest ih => simp [Value.membersText, memberChars, ih next]

/-- What is told apart where it stops, in a sequence of its kind behind commas. -/
theorem eq_of_commas {α : Type} {domain : α → Prop} {code : α → List Char} {close : Char}
    (bracket : close = ']' ∨ close = '}') {values others : List α}
    (each : ∀ value ∈ values, domain value ∧ Delimited MayFollow domain code value)
    (known : ∀ other ∈ others, domain other) {rest more : List Char}
    (same : (values.flatMap fun value => ',' :: code value) ++ close :: rest =
      (others.flatMap fun other => ',' :: code other) ++ close :: more) :
    values = others ∧ rest = more := by
  refine eq_of_flatMap_stop MayFollow domain ?_ ?_ ?_ ?_ known same
  · rintro behind char ⟨⟩
    exact .inr bracket
  · rintro value _ behind char ⟨⟩
    exact .inl rfl
  · refine fun value _ => ⟨',', _, rfl, ?_⟩
    rcases bracket with rfl | rfl
    · decide
    · decide
  · intro value member
    refine ⟨(each value member).1, fun other behind after inside may might alike => ?_⟩
    exact (each value member).2 other behind after inside may might (List.cons.inj alike).2

/-- A sequence up to its bracket, the first of which is not behind a comma. -/
theorem eq_of_bracketed {α : Type} {domain : α → Prop} {code : α → List Char} {close : Char}
    (text : List α → List Char) (bracket : close = ']' ∨ close = '}')
    (starts : ∀ value, domain value → ∃ char behind, code value = char :: behind ∧ char ≠ close)
    {values others : List α}
    (each : ∀ value ∈ values, domain value ∧ Delimited MayFollow domain code value)
    (known : ∀ other ∈ others, domain other) (empty : text [] = [])
    (joined : ∀ value rest, text (value :: rest) =
      code value ++ rest.flatMap fun next => ',' :: code next) {rest more : List Char}
    (same : text values ++ close :: rest = text others ++ close :: more) :
    values = others ∧ rest = more := by
  have behind : ∀ (codes : List α) (rest : List Char),
      MayFollow ((codes.flatMap fun next => ',' :: code next) ++ close :: rest) := by
    intro codes rest char first
    cases codes with
    | nil =>
        cases first
        exact .inr bracket
    | cons value codes =>
        cases first
        exact .inl rfl
  cases values with
  | nil =>
      cases others with
      | nil =>
          rw [empty] at same
          exact ⟨rfl, (List.cons.inj same).2⟩
      | cons other others =>
          obtain ⟨char, later, begun, differs⟩ := starts other (known other List.mem_cons_self)
          rw [empty, joined, begun] at same
          exact absurd (List.cons.inj same).1.symm differs
  | cons value values =>
      obtain ⟨⟨inside, delimited⟩, later⟩ := List.forall_mem_cons.mp each
      cases others with
      | nil =>
          obtain ⟨char, after, begun, differs⟩ := starts value inside
          rw [empty, joined, begun] at same
          exact absurd (List.cons.inj same).1 differs
      | cons other others =>
          obtain ⟨here, there⟩ := List.forall_mem_cons.mp known
          rw [joined, joined, List.append_assoc, List.append_assoc] at same
          obtain ⟨rfl, tails⟩ := delimited other _ _ here (behind values rest) (behind others more)
            same
          obtain ⟨rfl, rests⟩ := eq_of_commas bracket later there tails
          exact ⟨rfl, rests⟩

theorem delimited_member {key : String} {value : Value}
    (delimited : Delimited MayFollow Value.Spelled (fun value => value.toText.toList) value) :
    Delimited MayFollow (fun member : String × Value => member.2.Spelled) memberChars
      (key, value) := by
  rintro ⟨other, held⟩ rest more spelled may might same
  unfold memberChars at same
  rw [List.append_assoc, List.append_assoc] at same
  obtain ⟨rfl, behind⟩ := separated_quoted key other _ _ trivial same
  obtain ⟨rfl, rests⟩ := delimited held _ _ spelled may might (List.cons.inj behind).2
  exact ⟨rfl, rests⟩

/-- Values whose texts begin alike are of one kind. -/
theorem leadKind_eq {value other : Value} (spelled : value.Spelled) (written : other.Spelled)
    {rest more : List Char}
    (same : value.toText.toList ++ rest = other.toText.toList ++ more) :
    value.leadKind = other.leadKind := by
  obtain ⟨char, behind, begun, kind⟩ := toText_lead spelled
  obtain ⟨first, after, starts, sort⟩ := toText_lead written
  rw [begun, starts] at same
  rw [← kind, ← sort, (List.cons.inj same).1]

theorem number_delimited {number : Number} (spelled : (Value.number number).Spelled) :
    Delimited MayFollow Value.Spelled (fun value => value.toText.toList) (.number number) := by
  have chars : ∀ {number : Number}, (Value.number number).Spelled →
      ∀ char ∈ (Value.number number).toText.toList, isNumberChar char = true := by
    intro number spelled
    cases spelled with
    | int value => exact int_isNumberChar value
    | float written => exact written.spelled
  intro other rest more written may might same
  have kind := leadKind_eq spelled written same
  cases other with
  | number other =>
      obtain ⟨texts, rests⟩ := eq_of_runs (chars spelled) (chars written) may.breaks might.breaks
        same
      refine ⟨?_, rests⟩
      have alike := String.toList_injective texts
      cases spelled with
      | int value =>
          cases written with
          | int other => rw [Text.toString_int_injective alike]
          | float float => exact absurd alike.symm (float.ne_int value)
      | float float =>
          cases written with
          | int other => exact absurd alike (float.ne_int other)
          | float _ =>
              have same : _ = _ := alike
              simp only [Value.toText] at same
              rw [same]
  | bool flag => cases flag <;> cases kind
  | _ => cases kind

theorem ne_close {close : Char} (bracket : close = ']' ∨ close = '}') {value : Value}
    (spelled : value.Spelled) :
    ∃ char behind, value.toText.toList = char :: behind ∧ char ≠ close := by
  obtain ⟨char, behind, begun, kind⟩ := toText_lead spelled
  refine ⟨char, behind, begun, ?_⟩
  rintro rfl
  have none : leadKind char = 6 := by
    rcases bracket with rfl | rfl
    · rfl
    · rfl
  rw [none] at kind
  cases spelled with
  | int value =>
      rcases int_chars value char (by rw [show (toString value).toList = _ from begun]; simp) with
        digit | sign
      · rcases bracket with rfl | rfl
        · exact absurd digit (by decide)
        · exact absurd digit (by decide)
      · rcases bracket with rfl | rfl
        · exact absurd sign (by decide)
        · exact absurd sign (by decide)
  | float written =>
      have inside := written.spelled char (by
        change _ = char :: behind at begun
        rw [Value.toText] at begun
        simp [begun])
      rcases bracket with rfl | rfl
      · exact absurd inside (by decide)
      · exact absurd inside (by decide)
  | bool flag => cases flag <;> cases kind
  | _ => cases kind

/-- A value is told apart from its text, wherever it may stand. -/
theorem delimited_toText {value : Value} (spelled : value.Spelled) :
    Delimited MayFollow Value.Spelled (fun value => value.toText.toList) value := by
  induction spelled with
  | int value => exact number_delimited (.int value)
  | float written => exact number_delimited (.float written)
  | null =>
      intro other rest more written _ _ same
      have kind := leadKind_eq .null written same
      cases other with
      | null => exact ⟨rfl, List.append_cancel_left same⟩
      | bool flag => cases flag <;> cases kind
      | _ => cases kind
  | bool flag =>
      intro other rest more written _ _ same
      have kind := leadKind_eq (.bool flag) written same
      cases other with
      | bool flag' =>
          obtain rfl : flag = flag' := by cases flag <;> cases flag' <;> first | rfl | cases kind
          exact ⟨rfl, List.append_cancel_left same⟩
      | _ => cases flag <;> cases kind
  | string text =>
      intro other rest more written _ _ same
      have kind := leadKind_eq (.string text) written same
      cases other with
      | string text' =>
          obtain ⟨rfl, rests⟩ := separated_quoted text text' rest more trivial same
          exact ⟨rfl, rests⟩
      | bool flag => cases flag <;> cases kind
      | _ => cases kind
  | @array items each ih =>
      intro other rest more written _ _ same
      have kind := leadKind_eq (.array each) written same
      cases other with
      | array items' =>
          cases written with
          | array written =>
              simp only [Value.toText, String.toList_append, List.append_assoc] at same
              obtain ⟨rfl, rests⟩ := eq_of_bracketed (fun items => (Value.itemsText items).toList)
                (.inl rfl) (fun value spelled => ne_close (.inl rfl) spelled)
                (fun item member => ⟨each item member, ih item member⟩) written rfl
                itemsText_cons (List.cons.inj same).2
              exact ⟨rfl, rests⟩
      | bool flag => cases flag <;> cases kind
      | _ => cases kind
  | @object members each ih =>
      intro other rest more written _ _ same
      have kind := leadKind_eq (.object each) written same
      cases other with
      | object members' =>
          cases written with
          | object written =>
              simp only [Value.toText, String.toList_append, List.append_assoc] at same
              obtain ⟨rfl, rests⟩ := eq_of_bracketed
                (fun members => (Value.membersText members).toList) (.inr rfl)
                (fun member _ => ⟨'"', _, by rw [memberChars, quoted_toList]; rfl, by decide⟩)
                (fun member inside => ⟨each member inside, delimited_member (ih member inside)⟩)
                written rfl membersText_cons (List.cons.inj same).2
              exact ⟨rfl, rests⟩
      | bool flag => cases flag <;> cases kind
      | _ => cases kind

/-- Values with one text are equal. -/
theorem toText_injective {value other : Value} (spelled : value.Spelled) (written : other.Spelled)
    (same : value.toText = other.toText) : value = other := by
  have ends : MayFollow [] := nofun
  exact (delimited_toText spelled other [] [] written ends ends (by simp [same])).1

end SpecMock.Core
