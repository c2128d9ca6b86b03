import Mathlib.Data.List.Nodup
import Mathlib.Logic.Relation
import SpecMock.Runtime.MockMessages

/-!
# The nesting of mocked messages

Mocking follows message fields from one message type to the next, and it fails
where that leads below the greatest depth.  Which fields are followed is a
matter of the types alone, so types that contain themselves have no mock.
-/

namespace SpecMock.Runtime.Grpc

open SpecMock.Library SpecMock.Core

variable {δ ρ φ : Type}

/-! ## What the protobuf library guarantees -/

/-- The value is one of the kind, given the types of messages. -/
def Scalar.HasKind {μ : Type} (typeOf : μ → δ) : Kind δ → Scalar μ → Prop
  | .bool, .bool _ => True
  | .int32, .i32 _ | .sint32, .i32 _ | .sfixed32, .i32 _ => True
  | .int64, .i64 _ | .sint64, .i64 _ | .sfixed64, .i64 _ => True
  | .uint32, .u32 _ | .fixed32, .u32 _ => True
  | .uint64, .u64 _ | .fixed64, .u64 _ => True
  | .float, .f32 _ | .double, .f64 _ => True
  | .string, .string _ | .bytes, .bytes _ => True
  | .enum _, .enumNumber _ => True
  | .message descriptor, .message held => typeOf held = descriptor
  | _, _ => False

/-- The value has the type of the field. -/
def FieldValue.Suits {μ : Type} (typeOf : μ → δ) (field : FieldDescriptor δ) :
    FieldValue μ → Prop
  | .emptyMap => field.isMap = true
  | .list items => field.isMap = false ∧ field.isList = true ∧
      ∀ item ∈ items, item.HasKind typeOf field.kind
  | .single value => field.isMap = false ∧ field.isList = false ∧ value.HasKind typeOf field.kind

namespace Reflection

variable (reflection : Reflection δ)

/-- Numbers tell fields apart, and a field of a message can be set to a value of its type. -/
structure Lawful : Prop where
  distinct : ∀ descriptor, ((reflection.fields descriptor).map FieldDescriptor.number).Nodup
  descriptor_new : ∀ descriptor, reflection.descriptor (reflection.new descriptor) = descriptor
  hasField_new : ∀ descriptor number,
    reflection.hasField (reflection.new descriptor) number = false
  trySetField_ok : ∀ message field value,
    field ∈ reflection.fields (reflection.descriptor message) →
      value.Suits reflection.descriptor field →
        ∃ next, reflection.trySetField message field value = .ok next
  descriptor_set : ∀ message field value next,
    reflection.trySetField message field value = .ok next →
      reflection.descriptor next = reflection.descriptor message
  hasField_set : ∀ message field value next number,
    reflection.trySetField message field value = .ok next →
      reflection.hasField next number = true →
        number = field.number ∨ reflection.hasField message number = true

/-- Of every group of fields at most one is set. -/
def OneofsSingle (message : reflection.DynamicMessage) : Prop :=
  ∀ first ∈ reflection.fields (reflection.descriptor message),
    ∀ second ∈ reflection.fields (reflection.descriptor message),
      ∀ name, first.containingOneof = some name → second.containingOneof = some name →
        reflection.hasField message first.number = true →
          reflection.hasField message second.number = true → first = second

/-! ## Fields that are followed -/

/-- A type has a field of messages of another. -/
def Nests (outer inner : δ) : Prop :=
  ∃ field ∈ reflection.fields outer, field.kind = .message inner

/-- The enumerations of the type, and of those nested in it, have values. -/
def EnumsInhabited (descriptor : δ) : Prop :=
  ∀ inner, Relation.ReflTransGen reflection.Nests descriptor inner →
    ∀ field ∈ reflection.fields inner, field.kind ≠ .enum []

end Reflection

/-- Fields other than the later ones of a group. -/
def takenFields : List (FieldDescriptor δ) → List String → List (FieldDescriptor δ)
  | [], _ => []
  | field :: rest, oneofTaken =>
      match field.containingOneof with
      | none => field :: takenFields rest oneofTaken
      | some name =>
          if name ∈ oneofTaken then takenFields rest oneofTaken
          else field :: takenFields rest (name :: oneofTaken)

/-- A value of its kind is mocked for the field. -/
def FieldDescriptor.IsMocked (field : FieldDescriptor δ) : Prop :=
  field.isMap = false ∧ (field.isList = true ∨ field.cardinality = .optional ∨
    field.cardinality = .required ∨ field.supportsPresence = true)

instance (field : FieldDescriptor δ) : Decidable field.IsMocked :=
  inferInstanceAs (Decidable (_ ∧ _))

/-- The fields of a type that are set. -/
def Reflection.mockFields (reflection : Reflection δ) (descriptor : δ) :
    List (FieldDescriptor δ) :=
  takenFields (reflection.fields descriptor) []

/-- From the type so many message fields can be followed one after the other. -/
def Reflection.Descends (reflection : Reflection δ) : Nat → δ → Prop
  | 0, _ => True
  | steps + 1, descriptor => ∃ field ∈ reflection.mockFields descriptor, field.IsMocked ∧
      ∃ inner, field.kind = .message inner ∧ reflection.Descends steps inner

/-- A value of the kind can be made, given the types of which messages can. -/
def Kind.Completes (completes : δ → Prop) : Kind δ → Prop
  | .enum numbers => numbers ≠ []
  | .message descriptor => completes descriptor
  | _ => True

/-- A message of the type can be made with the levels that are left. -/
def Reflection.Completes (reflection : Reflection δ) : Nat → δ → Prop
  | 0, _ => False
  | levels + 1, descriptor => ∀ field ∈ reflection.mockFields descriptor, field.IsMocked →
      field.kind.Completes (reflection.Completes levels)

/-! ## One field -/

/-- The message types that complete are mocked, and a failure of another has a cause. -/
structure Mocks (reflection : Reflection δ)
    (generate : δ → BitVec 64 → Nat → Mocking reflection.DynamicMessage)
    (completes : δ → Prop) (fails : δ → String → Prop) : Prop where
  ok : ∀ descriptor seed depth, completes descriptor →
    ∃ message, (generate descriptor seed depth).outcome = .ok message ∧
      reflection.descriptor message = descriptor
  error : ∀ descriptor seed depth, ¬ completes descriptor →
    ∃ failure, (generate descriptor seed depth).outcome = .error failure ∧
      fails descriptor failure

/-- Why a value of a kind cannot be made. -/
def Kind.Fails (fails : δ → String → Prop) (kind : Kind δ) (failure : String) : Prop :=
  (kind = .enum [] ∧ failure = "enum has no values") ∨
    ∃ descriptor, kind = .message descriptor ∧ fails descriptor failure

/-- The log of a value of a kind. -/
def kindLog {reflection : Reflection δ}
    (generate : δ → BitVec 64 → Nat → Mocking reflection.DynamicMessage) (kind : Kind δ)
    (seed : BitVec 64) (depth : Nat) : List Nat :=
  match kind with
  | .message descriptor =>
      (seed.toNat + 1) :: (depth + 1) :: (generate descriptor (seed + 1) (depth + 1)).log
  | _ => []

section Field

variable {reflection : Reflection δ} (random : Randomness ρ φ)
  {generate : δ → BitVec 64 → Nat → Mocking reflection.DynamicMessage}
  {completes : δ → Prop} {fails : δ → String → Prop}

theorem scalarValueForField_ok (mocks : Mocks reflection generate completes fails)
    {kind : Kind δ} (complete : kind.Completes completes) (seed : BitVec 64) (depth : Nat) :
    ∃ value, (scalarValueForField reflection random generate kind seed depth).outcome =
      .ok value ∧ value.HasKind reflection.descriptor kind := by
  cases kind with
  | enum numbers =>
      cases numbers with
      | nil => exact absurd rfl complete
      | cons number rest => exact ⟨_, rfl, trivial⟩
  | message descriptor =>
      obtain ⟨message, generated, typed⟩ := mocks.ok descriptor (seed + 1) (depth + 1) complete
      refine ⟨.message message, ?_, typed⟩
      rw [scalarValueForField, Logged.note_bind, Logged.note_bind, Logged.bind_eq_of_ok generated]
      rfl
  | _ => exact ⟨_, rfl, trivial⟩

theorem scalarValueForField_error (mocks : Mocks reflection generate completes fails)
    {kind : Kind δ} (incomplete : ¬ kind.Completes completes) (seed : BitVec 64) (depth : Nat) :
    ∃ failure, (scalarValueForField reflection random generate kind seed depth).outcome =
      .error failure ∧ kind.Fails fails failure := by
  cases kind with
  | enum numbers =>
      cases numbers with
      | nil => exact ⟨_, rfl, .inl ⟨rfl, rfl⟩⟩
      | cons number rest => exact absurd (List.cons_ne_nil _ _) incomplete
  | message descriptor =>
      obtain ⟨failure, failed, caused⟩ :=
        mocks.error descriptor (seed + 1) (depth + 1) incomplete
      refine ⟨failure, ?_, .inr ⟨descriptor, rfl, caused⟩⟩
      rw [scalarValueForField, Logged.note_bind, Logged.note_bind, Logged.bind_eq_of_error failed]
  | _ => exact absurd trivial incomplete

theorem log_scalarValueForField (kind : Kind δ) (seed : BitVec 64) (depth : Nat) :
    (scalarValueForField reflection random generate kind seed depth).log =
      kindLog generate kind seed depth := by
  cases kind with
  | enum numbers => cases numbers <;> rfl
  | message descriptor =>
      rw [scalarValueForField, Logged.note_bind, Logged.note_bind, kindLog]
      cases run : (generate descriptor (seed + 1) (depth + 1)).outcome with
      | error failure => rw [Logged.bind_eq_of_error run]
      | ok message =>
          rw [Logged.bind_eq_of_ok run]
          exact congrArg (fun log => _ :: _ :: log) (List.append_nil _)
  | _ => rfl

/-- What has been set, and of which type the message is. -/
structure SetSoFar (reflection : Reflection δ) (descriptor : δ)
    (done : List (FieldDescriptor δ)) (message : reflection.DynamicMessage) : Prop where
  typed : reflection.descriptor message = descriptor
  known : ∀ number, reflection.hasField message number = true →
    number ∈ done.map FieldDescriptor.number

variable (lawful : reflection.Lawful) {descriptor : δ} {done : List (FieldDescriptor δ)}
  {message : reflection.DynamicMessage} (set : SetSoFar reflection descriptor done message)
  {field : FieldDescriptor δ} (listed : field ∈ reflection.fields descriptor)

include set in
theorem SetSoFar.skip : SetSoFar reflection descriptor (done ++ [field]) message := by
  refine ⟨set.typed, fun number known => ?_⟩
  rw [List.map_append]
  exact List.mem_append_left _ (set.known number known)

include lawful set listed

theorem SetSoFar.trySetField {value : FieldValue reflection.DynamicMessage}
    (suits : value.Suits reflection.descriptor field) :
    ∃ next, reflection.trySetField message field value = .ok next ∧
      SetSoFar reflection descriptor (done ++ [field]) next := by
  obtain ⟨next, stored⟩ := lawful.trySetField_ok message field value (set.typed ▸ listed) suits
  refine ⟨next, stored, (lawful.descriptor_set _ _ _ _ stored).trans set.typed, ?_⟩
  intro number known
  rw [List.map_append]
  rcases lawful.hasField_set _ _ _ _ number stored known with rfl | before
  · exact List.mem_append_right _ (List.mem_singleton.mpr rfl)
  · exact List.mem_append_left _ (set.known number before)

/-- A field for which a value can be made, if it needs one, is set. -/
theorem setMockField_ok (mocks : Mocks reflection generate completes fails)
    (complete : field.IsMocked → field.kind.Completes completes) (seed : BitVec 64) (depth : Nat) :
    ∃ next, (setMockField reflection random generate seed depth message field).outcome = .ok next ∧
      SetSoFar reflection descriptor (done ++ [field]) next := by
  unfold setMockField
  by_cases map : field.isMap = true
  · rw [if_pos map]
    have suits : FieldValue.Suits reflection.descriptor field .emptyMap := map
    exact set.trySetField lawful listed suits
  · have plain : field.isMap = false := Bool.eq_false_of_not_eq_true map
    rw [if_neg map]
    by_cases list : field.isList = true
    · obtain ⟨item, made, suits⟩ := scalarValueForField_ok random mocks
        (complete ⟨plain, .inl list⟩) (fieldSeed seed field.number) depth
      rw [if_pos list, Logged.bind_eq_of_ok made]
      exact set.trySetField lawful listed ⟨plain, list, List.forall_mem_singleton.mpr suits⟩
    · have single : field.isList = false := Bool.eq_false_of_not_eq_true list
      rw [if_neg list]
      by_cases filled : field.cardinality = .optional ∨ field.cardinality = .required ∨
          field.supportsPresence = true
      · obtain ⟨value, made, suits⟩ := scalarValueForField_ok random mocks
          (complete ⟨plain, .inr filled⟩) (fieldSeed seed field.number) depth
        rw [if_pos filled, Logged.bind_eq_of_ok made]
        exact set.trySetField lawful listed ⟨plain, single, suits⟩
      · rw [if_neg filled]
        exact ⟨message, rfl, set.skip⟩

omit lawful set listed

theorem setMockField_error (mocks : Mocks reflection generate completes fails)
    (incomplete : ¬ (field.IsMocked → field.kind.Completes completes)) (seed : BitVec 64)
    (depth : Nat) :
    ∃ failure, (setMockField reflection random generate seed depth message field).outcome =
      .error failure ∧ field.kind.Fails fails failure := by
  obtain ⟨⟨plain, filled⟩, missing⟩ := Classical.not_imp.mp incomplete
  obtain ⟨failure, failed, caused⟩ := scalarValueForField_error random mocks missing
    (fieldSeed seed field.number) depth
  unfold setMockField
  rw [if_neg (Bool.not_eq_true _ ▸ plain)]
  by_cases list : field.isList = true
  · rw [if_pos list, Logged.bind_eq_of_error failed]
    exact ⟨failure, rfl, caused⟩
  · rw [if_neg list, if_pos (filled.resolve_left list), Logged.bind_eq_of_error failed]
    exact ⟨failure, rfl, caused⟩

/-- The log of a field. -/
def fieldLog (generate : δ → BitVec 64 → Nat → Mocking reflection.DynamicMessage)
    (seed : BitVec 64) (depth : Nat) (field : FieldDescriptor δ) : List Nat :=
  if field.IsMocked then kindLog generate field.kind (fieldSeed seed field.number) depth else []

theorem log_setMockField (seed : BitVec 64) (depth : Nat) :
    (setMockField reflection random generate seed depth message field).log =
      fieldLog generate seed depth field := by
  have finished : ∀ value : Scalar reflection.DynamicMessage →
      FieldValue reflection.DynamicMessage,
      (scalarValueForField reflection random generate field.kind
          (fieldSeed seed field.number) depth >>=
        fun item => Logged.ofExcept (reflection.trySetField message field (value item))).log =
          kindLog generate field.kind (fieldSeed seed field.number) depth := by
    intro value
    rw [← log_scalarValueForField random field.kind (fieldSeed seed field.number) depth]
    cases run : (scalarValueForField reflection random generate field.kind
        (fieldSeed seed field.number) depth).outcome with
    | error failure => rw [Logged.bind_eq_of_error run]
    | ok item =>
        rw [Logged.bind_eq_of_ok run]
        exact List.append_nil _
  unfold setMockField fieldLog
  by_cases map : field.isMap = true
  · rw [if_pos map, if_neg (by simp [FieldDescriptor.IsMocked, map])]
    rfl
  · have plain : field.isMap = false := Bool.eq_false_of_not_eq_true map
    rw [if_neg map]
    by_cases list : field.isList = true
    · rw [if_pos list, if_pos ⟨plain, .inl list⟩]
      exact finished fun item => .list [item]
    · rw [if_neg list]
      by_cases filled : field.cardinality = .optional ∨ field.cardinality = .required ∨
          field.supportsPresence = true
      · rw [if_pos filled, if_pos ⟨plain, .inr filled⟩]
        exact finished .single
      · rw [if_neg filled, if_neg fun mocked => filled (mocked.2.resolve_left list)]
        rfl

end Field

/-! ## All fields -/

theorem mem_of_mem_takenFields {fields : List (FieldDescriptor δ)} {oneofTaken : List String}
    {field : FieldDescriptor δ} (taken : field ∈ takenFields fields oneofTaken) :
    field ∈ fields := by
  induction fields generalizing oneofTaken with
  | nil => cases taken
  | cons first rest ih =>
      rw [takenFields] at taken
      split at taken
      next =>
        rcases List.mem_cons.mp taken with rfl | later
        · exact List.mem_cons_self
        · exact List.mem_cons_of_mem _ (ih later)
      next =>
        split at taken
        · exact List.mem_cons_of_mem _ (ih taken)
        · rcases List.mem_cons.mp taken with rfl | later
          · exact List.mem_cons_self
          · exact List.mem_cons_of_mem _ (ih later)

/-- A group is not taken twice. -/
theorem not_mem_of_mem_takenFields {fields : List (FieldDescriptor δ)} {oneofTaken : List String}
    {field : FieldDescriptor δ} {name : String} (taken : field ∈ takenFields fields oneofTaken)
    (grouped : field.containingOneof = some name) : name ∉ oneofTaken := by
  induction fields generalizing oneofTaken with
  | nil => cases taken
  | cons first rest ih =>
      rw [takenFields] at taken
      split at taken
      next alone =>
        rcases List.mem_cons.mp taken with rfl | later
        · rw [alone] at grouped
          cases grouped
        · exact ih later
      next other group =>
        split at taken
        · exact ih taken
        next fresh =>
          rcases List.mem_cons.mp taken with rfl | later
          · rw [group] at grouped
            cases grouped
            exact fresh
          · exact fun known => ih later (List.mem_cons_of_mem _ known)

theorem eq_of_mem_takenFields {fields : List (FieldDescriptor δ)} {oneofTaken : List String}
    {first second : FieldDescriptor δ} {name : String}
    (taken : first ∈ takenFields fields oneofTaken) (other : second ∈ takenFields fields oneofTaken)
    (group : first.containingOneof = some name) (again : second.containingOneof = some name) :
    first = second := by
  induction fields generalizing oneofTaken with
  | nil => cases taken
  | cons field rest ih =>
      rw [takenFields] at taken other
      cases grouped : field.containingOneof with
      | none =>
          simp only [grouped, List.mem_cons] at taken other
          rcases taken with rfl | taken
          · exact nomatch grouped.symm.trans group
          · rcases other with rfl | other
            · exact nomatch grouped.symm.trans again
            · exact ih taken other
      | some own =>
          simp only [grouped] at taken other
          by_cases known : own ∈ oneofTaken
          · rw [if_pos known] at taken other
            exact ih taken other
          · rw [if_neg known, List.mem_cons] at taken other
            rcases taken with rfl | taken
            · rcases other with rfl | other
              · rfl
              · cases grouped.symm.trans group
                exact absurd List.mem_cons_self (not_mem_of_mem_takenFields other again)
            · rcases other with rfl | other
              · cases grouped.symm.trans again
                exact absurd List.mem_cons_self (not_mem_of_mem_takenFields taken group)
              · exact ih taken other

section Fields

variable {reflection : Reflection δ} (random : Randomness ρ φ)
  {generate : δ → BitVec 64 → Nat → Mocking reflection.DynamicMessage}
  {completes : δ → Prop} {fails : δ → String → Prop}

/-- The fields that are taken are set one after the other. -/
theorem setMockFields_eq_foldlM (seed : BitVec 64) (depth : Nat)
    (fields : List (FieldDescriptor δ)) (oneofTaken : List String)
    (message : reflection.DynamicMessage) :
    setMockFields reflection random generate seed depth fields oneofTaken message =
      (takenFields fields oneofTaken).foldlM
        (setMockField reflection random generate seed depth) message := by
  induction fields generalizing oneofTaken message with
  | nil => rfl
  | cons field rest ih =>
      rw [setMockFields, takenFields]
      cases field.containingOneof with
      | none => simp only [List.foldlM_cons, ih]
      | some name =>
          by_cases known : name ∈ oneofTaken
          · simp only [if_pos known, ih]
          · simp only [if_neg known, List.foldlM_cons, ih]

/-- What the fields of a type do. -/
theorem steps_setMockField (lawful : reflection.Lawful)
    (mocks : Mocks reflection generate completes fails) (descriptor : δ) (seed : BitVec 64)
    (depth : Nat) :
    Logged.Steps (setMockField reflection random generate seed depth)
      (SetSoFar reflection descriptor)
      (fun field => field.IsMocked → field.kind.Completes completes)
      (fun failure => ∃ field ∈ reflection.fields descriptor, field.kind.Fails fails failure)
      (fieldLog generate seed depth) (reflection.mockFields descriptor) := by
  have listed : ∀ {done left : List (FieldDescriptor δ)} {field : FieldDescriptor δ},
      reflection.mockFields descriptor = done ++ field :: left →
        field ∈ reflection.fields descriptor := by
    intro done left field split
    exact mem_of_mem_takenFields (show field ∈ reflection.mockFields descriptor by simp [split])
  constructor
  · intro done field left message split set complete
    exact setMockField_ok random lawful set (listed split) mocks complete seed depth
  · intro done field left message split _ incomplete
    obtain ⟨failure, failed, caused⟩ := setMockField_error random mocks incomplete seed depth
    exact ⟨failure, failed, field, listed split, caused⟩
  · exact fun _ _ _ _ _ _ => log_setMockField random seed depth

end Fields

/-! ## All levels -/

/-- Why no message of a type can be made. -/
def Reflection.Fails (reflection : Reflection δ) (descriptor : δ) (failure : String) : Prop :=
  failure = "maximum protobuf message recursion depth reached" ∨
    (failure = "enum has no values" ∧ ¬ reflection.EnumsInhabited descriptor)

namespace Reflection

variable {reflection : Reflection δ}

theorem EnumsInhabited.inner {outer inner : δ} (inhabited : reflection.EnumsInhabited outer)
    (nests : reflection.Nests outer inner) : reflection.EnumsInhabited inner :=
  fun deeper path => inhabited deeper (.head nests path)

/-- A failure of a field is one of the type. -/
theorem fails_of_field {descriptor : δ} {field : FieldDescriptor δ} {failure : String}
    (listed : field ∈ reflection.fields descriptor)
    (caused : field.kind.Fails reflection.Fails failure) : reflection.Fails descriptor failure := by
  rcases caused with ⟨empty, rfl⟩ | ⟨inner, nested, rfl | ⟨rfl, missing⟩⟩
  · exact .inr ⟨rfl, fun inhabited => inhabited descriptor .refl field listed empty⟩
  · exact .inl rfl
  · exact .inr ⟨rfl, fun inhabited => missing (inhabited.inner ⟨field, listed, nested⟩)⟩

theorem setSoFar_new (lawful : reflection.Lawful) (descriptor : δ) :
    SetSoFar reflection descriptor [] (reflection.new descriptor) := by
  refine ⟨lawful.descriptor_new descriptor, fun number known => ?_⟩
  rw [lawful.hasField_new] at known
  cases known

/-- Two fields with one number are one field. -/
theorem Lawful.eq_of_number {descriptor : δ} {first second : FieldDescriptor δ}
    (lawful : reflection.Lawful) (listed : first ∈ reflection.fields descriptor)
    (other : second ∈ reflection.fields descriptor) (same : first.number = second.number) :
    first = second :=
  List.inj_on_of_nodup_map (lawful.distinct descriptor) listed other same

/-- If only taken fields are set, no group is set twice. -/
theorem oneofsSingle_of_set {descriptor : δ} {message : reflection.DynamicMessage}
    (lawful : reflection.Lawful)
    (set : SetSoFar reflection descriptor (reflection.mockFields descriptor) message) :
    reflection.OneofsSingle message := by
  have taken : ∀ field ∈ reflection.fields descriptor,
      reflection.hasField message field.number = true →
        field ∈ reflection.mockFields descriptor := by
    intro field listed known
    obtain ⟨other, member, same⟩ := List.mem_map.mp (set.known field.number known)
    exact lawful.eq_of_number (mem_of_mem_takenFields member) listed same ▸ member
  intro first listed second other name group again known also
  rw [set.typed] at listed other
  exact eq_of_mem_takenFields (taken first listed known) (taken second other also) group again

section Levels

variable (lawful : reflection.Lawful) (random : Randomness ρ φ)

include lawful

theorem mocks_generateLevels (levels : Nat) :
    Mocks reflection (generateLevels reflection random levels) (reflection.Completes levels)
      reflection.Fails := by
  induction levels with
  | zero =>
      constructor
      · exact fun _ _ _ complete => complete.elim
      · exact fun _ _ _ _ => ⟨_, rfl, .inl rfl⟩
  | succ levels ih =>
      have begins := setSoFar_new lawful
      constructor
      · intro descriptor seed depth complete
        obtain ⟨message, made, set⟩ :=
          (steps_setMockField random lawful ih descriptor seed depth).foldlM_ok
            (begins descriptor) complete
        refine ⟨message, ?_, set.typed⟩
        rw [generateLevels, setMockFields_eq_foldlM]
        exact made
      · intro descriptor seed depth incomplete
        have unsound : ∃ field ∈ reflection.mockFields descriptor,
            ¬ (field.IsMocked → field.kind.Completes (reflection.Completes levels)) := by
          by_contra all
          exact incomplete fun field listed => by_contra fun bad => all ⟨field, listed, bad⟩
        obtain ⟨failure, failed, field, listed, caused⟩ :=
          (steps_setMockField random lawful ih descriptor seed depth).foldlM_error
            (begins descriptor) unsound
        refine ⟨failure, ?_, fails_of_field listed caused⟩
        rw [generateLevels, setMockFields_eq_foldlM]
        exact failed

/-- A type that completes has a mock with single groups. -/
theorem generateLevels_ok {levels : Nat} {descriptor : δ}
    (complete : reflection.Completes levels descriptor) (seed : BitVec 64) (depth : Nat) :
    ∃ message, (generateLevels reflection random levels descriptor seed depth).outcome =
      .ok message ∧ reflection.descriptor message = descriptor ∧
        reflection.OneofsSingle message := by
  cases levels with
  | zero => exact complete.elim
  | succ levels =>
      have mocks := mocks_generateLevels lawful random levels
      obtain ⟨message, made, set⟩ :=
        (steps_setMockField random lawful mocks descriptor seed depth).foldlM_ok
          (setSoFar_new lawful descriptor) complete
      refine ⟨message, ?_, set.typed, oneofsSingle_of_set lawful set⟩
      rw [generateLevels, setMockFields_eq_foldlM]
      exact made

end Levels

/-- Where all enumerations have values, only the depth can stop a message. -/
theorem completes_iff {levels : Nat} {descriptor : δ}
    (inhabited : reflection.EnumsInhabited descriptor) :
    reflection.Completes levels descriptor ↔ ¬ reflection.Descends levels descriptor := by
  induction levels generalizing descriptor with
  | zero => exact iff_of_false id (not_not_intro trivial)
  | succ levels ih =>
      have inner : ∀ field ∈ reflection.mockFields descriptor, ∀ inner,
          field.kind = .message inner →
            (reflection.Completes levels inner ↔ ¬ reflection.Descends levels inner) :=
        fun field taken inner nested =>
          ih (inhabited.inner ⟨field, mem_of_mem_takenFields taken, nested⟩)
      constructor
      · rintro complete ⟨field, taken, mocked, below, nested, deep⟩
        have made := complete field taken mocked
        rw [nested] at made
        exact (inner field taken below nested).mp made deep
      · intro shallow field taken mocked
        cases nested : field.kind with
        | message below =>
            refine (inner field taken below nested).mpr fun deep => ?_
            exact shallow ⟨field, taken, mocked, below, nested, deep⟩
        | enum numbers =>
            rintro rfl
            exact inhabited descriptor .refl field (mem_of_mem_takenFields taken) nested
        | _ => trivial

/-- A type that leads too deep is refused for every seed. -/
theorem generateLevels_error (lawful : reflection.Lawful) (random : Randomness ρ φ) {levels : Nat}
    {descriptor : δ} (inhabited : reflection.EnumsInhabited descriptor)
    (deep : reflection.Descends levels descriptor) (seed : BitVec 64) (depth : Nat) :
    (generateLevels reflection random levels descriptor seed depth).outcome =
      .error "maximum protobuf message recursion depth reached" := by
  obtain ⟨failure, failed, cause⟩ := (mocks_generateLevels lawful random levels).error
    descriptor seed depth fun complete => (completes_iff inhabited).mp complete deep
  rcases cause with rfl | ⟨-, missing⟩
  · exact failed
  · exact absurd inhabited missing

end Reflection

/--
A message type has a mock for every seed, unless its message fields lead further
down than the depth allows; then every seed is refused.
-/
theorem mocked_iff_shallow {reflection : Reflection δ} (lawful : reflection.Lawful)
    (random : Randomness ρ φ) {descriptor : δ} (inhabited : reflection.EnumsInhabited descriptor)
    (seed : BitVec 64) (depth : Nat) :
    (¬ reflection.Descends (maxMessageDepth + 1 - depth) descriptor →
      ∃ message, (generateDynamicMessage reflection random descriptor seed depth).outcome =
        .ok message ∧ reflection.descriptor message = descriptor ∧
          reflection.OneofsSingle message) ∧
    (reflection.Descends (maxMessageDepth + 1 - depth) descriptor →
      (generateDynamicMessage reflection random descriptor seed depth).outcome =
        .error "maximum protobuf message recursion depth reached") := by
  constructor
  · intro shallow
    exact Reflection.generateLevels_ok lawful random
      ((Reflection.completes_iff inhabited).mpr shallow) seed depth
  · intro deep
    exact Reflection.generateLevels_error lawful random inhabited deep seed depth

/-! ## Messages as records -/

/-- A message with the values of the fields that are set. -/
inductive Record (δ : Type) where
  | mk (descriptor : δ) (values : List (BitVec 32 × FieldValue (Record δ)))

namespace Record

variable [DecidableEq δ]

def descriptor : Record δ → δ
  | mk descriptor _ => descriptor

def values : Record δ → List (BitVec 32 × FieldValue (Record δ))
  | mk _ values => values

instance (kind : Kind δ) (value : Scalar (Record δ)) :
    Decidable (value.HasKind descriptor kind) := by
  cases kind <;> cases value <;>
    first | exact .isTrue trivial | exact .isFalse id | exact decEq (descriptor _) _

instance (field : FieldDescriptor δ) (value : FieldValue (Record δ)) :
    Decidable (value.Suits descriptor field) :=
  match value with
  | .emptyMap => decEq field.isMap true
  | .list items => inferInstanceAs (Decidable (field.isMap = false ∧ field.isList = true ∧
      ∀ item ∈ items, item.HasKind descriptor field.kind))
  | .single value => inferInstanceAs (Decidable (field.isMap = false ∧ field.isList = false ∧
      value.HasKind descriptor field.kind))

/-- A list or a map is only there if it has items. -/
def present : FieldValue (Record δ) → Bool
  | .single _ => true
  | .list items => !items.isEmpty
  | .emptyMap => false

end Record

/-- The library that keeps records; a field that is set clears the others of its group. -/
def records [DecidableEq δ] (fields : δ → List (FieldDescriptor δ)) : Reflection δ where
  fields := fields
  DynamicMessage := Record δ
  new descriptor := .mk descriptor []
  trySetField message field value :=
    if value.Suits Record.descriptor field then
      let cleared := (field :: (fields message.descriptor).filter fun other =>
        field.containingOneof.isSome && other.containingOneof == field.containingOneof).map
          FieldDescriptor.number
      .ok (.mk message.descriptor ((field.number, value) ::
        message.values.filter fun entry => !cleared.contains entry.1))
    else .error "value has another type than the field"
  descriptor := Record.descriptor
  hasField message number :=
    message.values.any fun entry => entry.1 == number && Record.present entry.2

theorem records_lawful [DecidableEq δ] {fields : δ → List (FieldDescriptor δ)}
    (distinct : ∀ descriptor, ((fields descriptor).map FieldDescriptor.number).Nodup) :
    (records fields).Lawful where
  distinct := distinct
  descriptor_new _ := rfl
  hasField_new _ _ := rfl
  trySetField_ok message field value _ suits := ⟨_, if_pos suits⟩
  descriptor_set message field value next stored := by
    by_cases suits : value.Suits Record.descriptor field
    · rw [show (records fields).trySetField message field value = _ from if_pos suits] at stored
      cases stored
      rfl
    · rw [show (records fields).trySetField message field value = _ from if_neg suits] at stored
      cases stored
  hasField_set message field value next number stored known := by
    by_cases suits : value.Suits Record.descriptor field
    · rw [show (records fields).trySetField message field value = _ from if_pos suits] at stored
      cases stored
      obtain ⟨entry, member, found⟩ := List.any_eq_true.mp known
      rcases List.mem_cons.mp member with rfl | kept
      · exact .inl (eq_of_beq (Bool.and_eq_true_iff.mp found).1).symm
      · exact .inr (List.any_eq_true.mpr ⟨entry, (List.mem_filter.mp kept).1, found⟩)
    · rw [show (records fields).trySetField message field value = _ from if_neg suits] at stored
      cases stored

/-- A field that may be left out. -/
def optionalField (number : BitVec 32) (kind : Kind δ) (group : Option String) :
    FieldDescriptor δ where
  number := number
  kind := kind
  cardinality := .optional
  isMap := false
  isList := false
  supportsPresence := true
  containingOneof := group

/-- A reply to a comment is its text, or another comment. -/
inductive CommentType where
  | author | comment
  deriving DecidableEq

def quotedFields : CommentType → List (FieldDescriptor CommentType)
  | .author => [optionalField 1 .string none]
  | .comment => [optionalField 1 (.message .author) none,
      optionalField 2 .string (some "Comment.reply"),
      optionalField 3 (.message .comment) (some "Comment.reply")]

/-- A reply to a comment is always a comment. -/
def threadedFields : CommentType → List (FieldDescriptor CommentType)
  | .author => [optionalField 1 .string none]
  | .comment => [optionalField 1 (.message .author) none,
      optionalField 2 (.message .comment) none]

theorem quotedFields_lawful : (records quotedFields).Lawful :=
  records_lawful fun descriptor => by cases descriptor <;> decide

theorem threadedFields_lawful : (records threadedFields).Lawful :=
  records_lawful fun descriptor => by cases descriptor <;> decide

/-- Without enumerations there is none without values. -/
theorem enumsInhabited_of_none {fields : CommentType → List (FieldDescriptor CommentType)}
    (plain : ∀ descriptor, ∀ field ∈ fields descriptor, field.kind ≠ .enum [])
    (descriptor : CommentType) : (records fields).EnumsInhabited descriptor :=
  fun inner _ => plain inner

theorem quotedFields_enums (descriptor : CommentType) :
    ∀ field ∈ quotedFields descriptor, field.kind ≠ .enum [] := by
  cases descriptor <;> simp [quotedFields, optionalField]

theorem threadedFields_enums (descriptor : CommentType) :
    ∀ field ∈ threadedFields descriptor, field.kind ≠ .enum [] := by
  cases descriptor <;> simp [threadedFields, optionalField]

/-- The text is taken for the reply, so only the author of a comment is nested. -/
theorem quotedFields_nested {descriptor inner : CommentType} {field : FieldDescriptor CommentType}
    (taken : field ∈ (records quotedFields).mockFields descriptor)
    (nested : field.kind = .message inner) :
    descriptor = .comment ∧ field.number = 1 ∧ inner = .author := by
  cases descriptor with
  | author =>
      have fields : (records quotedFields).mockFields .author = [optionalField 1 .string none] :=
        rfl
      rw [fields, List.mem_singleton] at taken
      subst taken
      cases nested
  | comment =>
      have fields : (records quotedFields).mockFields .comment =
          [optionalField 1 (.message .author) none,
            optionalField 2 .string (some "Comment.reply")] := rfl
      rw [fields] at taken
      simp only [List.mem_cons, List.not_mem_nil, or_false] at taken
      rcases taken with rfl | rfl
      · cases nested
        exact ⟨rfl, rfl, rfl⟩
      · cases nested

theorem quotedFields_shallow (steps : Nat) :
    ¬ (records quotedFields).Descends (steps + 2) .comment := by
  rintro ⟨field, taken, -, inner, nested, field', taken', -, inner', nested', -⟩
  obtain ⟨-, -, rfl⟩ := quotedFields_nested taken nested
  exact nomatch (quotedFields_nested taken' nested').1

/-- Every comment has a reply that is one. -/
theorem threadedFields_deep (steps : Nat) : (records threadedFields).Descends steps .comment := by
  induction steps with
  | zero => trivial
  | succ steps ih =>
      exact ⟨optionalField 2 (.message .comment) none, by
        simp [Reflection.mockFields, records, threadedFields, takenFields, optionalField],
        ⟨rfl, .inr (.inl rfl)⟩, .comment, rfl, ih⟩

theorem comment_mocked : ∃ message,
    (generateDynamicMessage (records quotedFields) (Randomness.fixed 0) .comment 7 0).outcome =
      .ok message ∧ (records quotedFields).descriptor message = .comment ∧
        (records quotedFields).OneofsSingle message :=
  (mocked_iff_shallow quotedFields_lawful (Randomness.fixed 0)
    (enumsInhabited_of_none quotedFields_enums .comment) 7 0).1 (quotedFields_shallow 31)

/-- A thread of comments has no mock, although no field of it is required. -/
theorem thread_refused : (records threadedFields).Lawful ∧
    (records threadedFields).EnumsInhabited .comment ∧
    (∀ descriptor, ∀ field ∈ threadedFields descriptor, field.cardinality = .optional) ∧
    ∀ seed, (generateDynamicMessage (records threadedFields) (Randomness.fixed 0) .comment seed
      0).outcome = .error "maximum protobuf message recursion depth reached" := by
  have inhabited := enumsInhabited_of_none threadedFields_enums .comment
  refine ⟨threadedFields_lawful, inhabited, ?_, fun seed => ?_⟩
  · intro descriptor
    cases descriptor <;> simp [threadedFields, optionalField]
  · exact Reflection.generateLevels_error threadedFields_lawful (Randomness.fixed 0) inhabited
      (threadedFields_deep 33) seed 0

end SpecMock.Runtime.Grpc
