import SpecMock.Core.RefIdempotent

/-!
# Cycles and depth

The resolver tells cycles by the depth of its walk.  An endless unfolding uses
up every depth, so it is always refused.  The depth counts the levels of arrays
and objects along with the references, though, so a document without any cycle
is refused too, where the two together go deeper than the maximum.
-/

namespace SpecMock.Core

open SpecMock.Library

/-- A value of a document in a directory, on the way through an unfolding. -/
structure Position (Path : Type) where
  rootDoc : Value
  base : Path
  value : Value

variable {Path : Type} (files : Files Path) (allowedRoots : List Path)

/--
The steps of an unfolding: into an item of an array or a member of an object;
from a reference to the node it names in the same document, siblings merged in;
and from a reference to the node of a file, or to what that unfolds to among
the siblings.
-/
inductive Step : Position Path → Position Path → Prop where
  | item {rootDoc item : Value} {base : Path} {items : List Value} (inside : item ∈ items) :
      Step ⟨rootDoc, base, .array items⟩ ⟨rootDoc, base, item⟩
  | member {rootDoc : Value} {base : Path} {members : List (String × Value)}
      {member : String × Value} (plain : members.lookup "$ref" = none)
      (inside : member ∈ members) :
      Step ⟨rootDoc, base, .object members⟩ ⟨rootDoc, base, member.2⟩
  | inDocument {rootDoc node : Value} {base : Path} {members : List (String × Value)}
      {reference : String} (written : members.lookup "$ref" = some (.string reference))
      (here : (splitRef reference).1 = "")
      (names : Names files allowedRoots rootDoc base reference rootDoc base node) :
      Step ⟨rootDoc, base, .object members⟩
        ⟨rootDoc, base, mergeSiblings node (siblings members)⟩
  | inFile {rootDoc document node : Value} {base directory : Path}
      {members : List (String × Value)} {reference : String}
      (written : members.lookup "$ref" = some (.string reference))
      (elsewhere : (splitRef reference).1 ≠ "")
      (names : Names files allowedRoots rootDoc base reference document directory node) :
      Step ⟨rootDoc, base, .object members⟩ ⟨document, directory, node⟩
  | beside {hops : Nat} {rootDoc document node target : Value} {base directory : Path}
      {members : List (String × Value)} {reference : String}
      (written : members.lookup "$ref" = some (.string reference))
      (elsewhere : (splitRef reference).1 ≠ "")
      (names : Names files allowedRoots rootDoc base reference document directory node)
      (unfolds : Unfolds files allowedRoots hops document directory node target) :
      Step ⟨rootDoc, base, .object members⟩
        ⟨rootDoc, base, mergeSiblings target (siblings members)⟩

/-- The unfolding has a path of so many steps. -/
inductive Descends : Nat → Position Path → Prop where
  | here (position : Position Path) : Descends 0 position
  | further {steps : Nat} {position next : Position Path}
      (step : Step files allowedRoots position next) (rest : Descends steps next) :
      Descends (steps + 1) position

/-- The unfolding goes on for ever. -/
def Endless (position : Position Path) : Prop :=
  ∃ chain : Nat → Position Path, chain 0 = position ∧
    ∀ place, Step files allowedRoots (chain place) (chain (place + 1))

variable {files allowedRoots} {σ : Type} {maxDepth : Nat}

theorem Endless.descends {position : Position Path} (endless : Endless files allowedRoots position)
    (steps : Nat) : Descends files allowedRoots steps position := by
  obtain ⟨chain, rfl, onward⟩ := endless
  have from_ : ∀ place, Descends files allowedRoots steps (chain place) := by
    induction steps with
    | zero => exact fun place => .here _
    | succ steps ih => exact fun place => .further (onward place) (ih (place + 1))
  exact from_ 0

/-- The values that a walk resolved inside a file, and that the depth was enough for them. -/
def Fathomed (files : Files Path) (allowedRoots : List Path) (budget : Nat) (document : Value)
    (directory : Path) (node resolved : Value) : Prop :=
  Unfolds files allowedRoots budget document directory node resolved ∧
    ¬ Descends files allowedRoots budget ⟨document, directory, node⟩

/-- From a reference there is only the way through what it was resolved to. -/
theorem not_descends_reference {budget : Nat} {rootDoc resolved : Value} {base : Path}
    {members : List (String × Value)} {reference : String}
    (written : members.lookup "$ref" = some (.string reference))
    (inlines : Inlines files allowedRoots (Fathomed files allowedRoots budget) rootDoc base
      reference resolved)
    (shallow : ¬ Descends files allowedRoots budget
      ⟨rootDoc, base, mergeSiblings resolved (siblings members)⟩) :
    ¬ Descends files allowedRoots (budget + 1) ⟨rootDoc, base, .object members⟩ := by
  intro deep
  cases deep with
  | further step rest =>
      cases step with
      | member plain => cases plain.symm.trans written
      | inDocument written' here names =>
          cases written.symm.trans written'
          cases inlines with
          | inDocument _ names' =>
              obtain ⟨_, _, rfl⟩ := names.unique names'
              exact shallow rest
          | inFile elsewhere => exact elsewhere here
      | inFile written' elsewhere names =>
          cases written.symm.trans written'
          cases inlines with
          | inDocument here => exact elsewhere here
          | inFile _ names' inside =>
              obtain ⟨rfl, rfl, rfl⟩ := names.unique names'
              exact inside.2 rest
      | beside written' elsewhere names unfolds =>
          cases written.symm.trans written'
          cases inlines with
          | inDocument here => exact elsewhere here
          | inFile _ names' inside =>
              obtain ⟨rfl, rfl, rfl⟩ := names.unique names'
              rw [unfolds.unique inside.1] at rest
              exact shallow rest

/-- A scalar is the end of every path. -/
theorem not_descends_scalar {budget : Nat} {rootDoc value : Value} {base : Path}
    (plain : value.IsScalar) :
    ¬ Descends files allowedRoots (budget + 1) ⟨rootDoc, base, value⟩ := by
  intro deep
  cases deep with
  | further step _ => cases step <;> cases plain

theorem not_descends_array {budget : Nat} {rootDoc : Value} {base : Path} {items : List Value}
    (each : ∀ item ∈ items, ¬ Descends files allowedRoots budget ⟨rootDoc, base, item⟩) :
    ¬ Descends files allowedRoots (budget + 1) ⟨rootDoc, base, .array items⟩ := by
  intro deep
  cases deep with
  | further step rest =>
      cases step with
      | item inside => exact each _ inside rest

theorem not_descends_object {budget : Nat} {rootDoc : Value} {base : Path}
    {members : List (String × Value)} (plain : members.lookup "$ref" = none)
    (each : ∀ member ∈ members,
      ¬ Descends files allowedRoots budget ⟨rootDoc, base, member.2⟩) :
    ¬ Descends files allowedRoots (budget + 1) ⟨rootDoc, base, .object members⟩ := by
  intro deep
  cases deep with
  | further step rest =>
      cases step with
      | member _ inside => exact each _ inside rest
      | inDocument written => cases plain.symm.trans written
      | inFile written => cases plain.symm.trans written
      | beside written => cases plain.symm.trans written

theorem ensures_not_descends {fetch : Path → Attempt String σ Value}
    (loads : ∀ canonical, Attempt.Ensures
      (fun document => loadFile files canonical = .ok document) (fetch canonical))
    (budget : Nat) (rootDoc : Value) (base : Path) (value : Value) :
    Attempt.Ensures (fun _ => ¬ Descends files allowedRoots budget ⟨rootDoc, base, value⟩)
      (resolveValue files allowedRoots maxDepth fetch budget rootDoc base value) := by
  have invariant : WalkInvariant files allowedRoots maxDepth fetch
      (fun budget rootDoc base value _ =>
        ¬ Descends files allowedRoots budget ⟨rootDoc, base, value⟩)
      (fun budget => Inlines files allowedRoots (Fathomed files allowedRoots budget)) := by
    constructor
    case refers =>
      intro budget shallow
      refine ensures_resolveRef loads ?_
      intro document directory node state resolved last succeeded
      exact ⟨ensures_resolveValue loads _ _ _ _ state resolved last succeeded,
        shallow document directory node state resolved last succeeded⟩
    case scalar => exact fun plain => not_descends_scalar plain
    case array => exact fun each => not_descends_array (forall_of_forall₂ each)
    case object =>
      intro budget rootDoc base members results plain each
      exact not_descends_object plain (forall_of_forall₂ (each.imp fun _ _ kept => kept.value))
    case reference =>
      exact fun written inlines shallow => not_descends_reference written inlines shallow
  exact invariant.ensures budget rootDoc base value

section Succeeds

variable {rootDoc document node : Value} {base directory : Path} {reference : String}
  {walk : Value → Path → Value → Attempt String Unit Value}

/-- A reference without a file part names a node of the same document. -/
theorem Names.here (here : (splitRef reference).1 = "")
    (names : Names files allowedRoots rootDoc base reference document directory node) :
    document = rootDoc ∧ directory = base := by
  cases names with
  | inDocument => exact ⟨rfl, rfl⟩
  | inFile _ parts elsewhere =>
      rw [parts] at here
      exact absurd here elsewhere

theorem resolveRef_inDocument (here : (splitRef reference).1 = "")
    (names : Names files allowedRoots rootDoc base reference document directory node) :
    resolveRef files allowedRoots (fixedDocument files) walk reference rootDoc base =
      Attempt.succeed node := by
  cases names with
  | inDocument noUrl parts addressed =>
      simp [resolveRef, noUrl, parts, addressed, Attempt.demand]
  | inFile _ parts elsewhere =>
      rw [parts] at here
      exact absurd here elsewhere

theorem resolveRef_inFile (elsewhere : (splitRef reference).1 ≠ "")
    (names : Names files allowedRoots rootDoc base reference document directory node) :
    resolveRef files allowedRoots (fixedDocument files) walk reference rootDoc base =
      walk document directory node := by
  cases names with
  | inDocument _ parts =>
      rw [parts] at elsewhere
      exact absurd rfl elsewhere
  | inFile noUrl parts other located permitted loaded addressed =>
      funext state
      simp only [resolveRef, noUrl, parts, other, located, permitted, fixedDocument, loaded,
        if_true, if_false, Bool.false_eq_true]
      change Attempt.andThen (Attempt.succeed _) _ state = _
      change Attempt.andThen (Attempt.demand _ (resolvePointer _ _)) _ state = _
      rw [addressed]
      rfl

/-- With enough depth, a value that has an unfolding is resolved to it. -/
theorem resolveValue_of_unfolds {hops budget : Nat} {value result : Value}
    (unfolds : Unfolds files allowedRoots hops rootDoc base value result)
    (shallow : ¬ Descends files allowedRoots budget ⟨rootDoc, base, value⟩) :
    resolveValue files allowedRoots maxDepth (fixedDocument files) budget rootDoc base value () =
      (.ok result, ()) := by
  induction budget generalizing hops rootDoc base value result with
  | zero => exact absurd (.here _) shallow
  | succ budget ih =>
      have below : ∀ {next}, Step files allowedRoots ⟨rootDoc, base, value⟩ next →
          ¬ Descends files allowedRoots budget next :=
        fun step deep => shallow (.further step deep)
      cases value with
      | object members =>
          unfold resolveValue
          cases written : members.lookup "$ref" with
          | none =>
              obtain ⟨rfl, each⟩ := (unfolds_object_iff written).mp unfolds
              refine Attempt.bind_ok.mpr ⟨_, _, Attempt.each_of_idle (fun member =>
                (member.1, meaningOf files allowedRoots rootDoc base member.2)) ?_ (), rfl⟩
              intro member inside _
              exact Attempt.bind_ok.mpr
                ⟨_, _, ih (each member inside) (below (.member written inside)), rfl⟩
          | some holds =>
              obtain ⟨reference, less, document, directory, node, rfl, rfl, names⟩ :=
                unfolds.names_of_written written
              by_cases here : (splitRef reference).1 = ""
              · refine Attempt.bind_ok.mpr ⟨node, (), ?_, ?_⟩
                · rw [resolveRef_inDocument here names]
                  rfl
                · obtain ⟨rfl, rfl⟩ := names.here here
                  exact ih (inlined_of_unfolds written names unfolds)
                    (below (.inDocument written here names))
              · obtain ⟨target, unfolded, rfl, beside⟩ :=
                  (unfolds_reference_iff written names).mp unfolds
                refine Attempt.bind_ok.mpr ⟨target, (), ?_, ?_⟩
                · rw [resolveRef_inFile here names]
                  exact ih unfolded (below (.inFile written here names))
                · refine ih ((unfolds_merged_settled unfolded.settled members).mpr ⟨rfl, beside⟩) ?_
                  exact below (.beside written here names unfolded)
      | array items =>
          obtain ⟨rfl, each⟩ := unfolds_array_iff.mp unfolds
          unfold resolveValue
          refine Attempt.bind_ok.mpr ⟨_, _, Attempt.each_of_idle
            (meaningOf files allowedRoots rootDoc base) ?_ (), rfl⟩
          exact fun item inside _ => ih (each item inside) (below (.item inside))
      | null | bool | number | string =>
          cases unfolds with
          | scalar => rfl

end Succeeds

namespace RefResolver

variable (files) (resolver : RefResolver Path) (request : Request Path)

/--
With the outcome, an endless document is refused, and a document is resolved if
its references unfold to it and no chain of nested references is longer than
half the maximum.
-/
def DetectsCycles (outcome : Except String Value) : Prop :=
  ∀ rootDoc base, resolver.start files request = .ok (rootDoc, base) →
    (Endless files resolver.allowedRoots ⟨rootDoc, base, rootDoc⟩ →
      ∃ error, outcome = .error error) ∧
    ∀ hops result, hops ≤ resolver.maxDepth / 2 →
      Unfolds files resolver.allowedRoots hops rootDoc base rootDoc result →
        ∃ resolved, outcome = .ok resolved

/-- No document with short chains of references goes deeper than the maximum. -/
def ShallowWhereShort : Prop :=
  ∀ rootDoc base, resolver.start files request = .ok (rootDoc, base) →
    ∀ hops result, hops ≤ resolver.maxDepth / 2 →
      Unfolds files resolver.allowedRoots hops rootDoc base rootDoc result →
        ¬ Descends files resolver.allowedRoots (resolver.maxDepth + 1) ⟨rootDoc, base, rootDoc⟩

variable {files resolver request} {rootDoc result : Value} {base : Path}

theorem answerFixed_eq (started : resolver.start files request = .ok (rootDoc, base)) :
    resolver.answerFixed files request =
      (resolveValue files resolver.allowedRoots resolver.maxDepth (fixedDocument files)
        (resolver.maxDepth + 1) rootDoc base rootDoc ()).1 := by
  unfold answerFixed resolveFrom
  rw [started]

/-- A document that is resolved goes no deeper than the maximum. -/
theorem shallow_of_answerFixed (started : resolver.start files request = .ok (rootDoc, base))
    (resolved : resolver.answerFixed files request = .ok result) :
    ¬ Descends files resolver.allowedRoots (resolver.maxDepth + 1) ⟨rootDoc, base, rootDoc⟩ := by
  rw [answerFixed_eq started] at resolved
  exact ensures_not_descends ensures_fixedDocument _ _ _ _ () result _ (Prod.ext resolved rfl)

theorem detectsCycles_answerFixed :
    resolver.DetectsCycles files request (resolver.answerFixed files request) ↔
      resolver.ShallowWhereShort files request := by
  constructor
  · intro detects rootDoc base started hops result short unfolds
    obtain ⟨resolved, answered⟩ := (detects rootDoc base started).2 hops result short unfolds
    exact shallow_of_answerFixed started answered
  · intro shallow rootDoc base started
    constructor
    · intro endless
      cases resolved : resolver.answerFixed files request with
      | error error => exact ⟨error, rfl⟩
      | ok result =>
          exact absurd (endless.descends _) (shallow_of_answerFixed started resolved)
    · intro hops result short unfolds
      refine ⟨result, ?_⟩
      rw [answerFixed_eq started, resolveValue_of_unfolds unfolds
        (shallow rootDoc base started hops result short unfolds)]

end RefResolver

/--
Cycle detection is exact where no document with short chains of references goes
deeper than the maximum, its arrays, objects and references counted together,
and so it is through the cache, if its keys tell documents apart.
-/
theorem detectsCycles_iff (files : Files Path) (resolver : RefResolver Path)
    (request : RefResolver.Request Path) :
    (resolver.DetectsCycles files request (resolver.answerFixed files request) ↔
      resolver.ShallowWhereShort files request) ∧
    (files.KeysFaithful → ∀ earlier,
      (resolver.DetectsCycles files request
          ((resolver.fresh.after files earlier).answer files request).2 ↔
        resolver.ShallowWhereShort files request)) := by
  refine ⟨RefResolver.detectsCycles_answerFixed, fun faithful earlier => ?_⟩
  rw [RefResolver.answer_after faithful]
  exact RefResolver.detectsCycles_answerFixed

theorem detectsCycles_iff_pets :
    (RefResolver.new petFiles "/d").DetectsCycles petFiles (.resolveValueTree petReference)
        (((RefResolver.new petFiles "/d").fresh.after petFiles []).answer petFiles
          (.resolveValueTree petReference)).2 ↔
      (RefResolver.new petFiles "/d").ShallowWhereShort petFiles
        (.resolveValueTree petReference) :=
  (detectsCycles_iff petFiles (RefResolver.new petFiles "/d") _).2 (keysFaithful_directoryOf _) []

/-- Arrays in one another. -/
def nested : Nat → Value
  | 0 => .null
  | depth + 1 => .array [nested depth]

theorem unfolds_nested (depth : Nat) (rootDoc : Value) (base : Path) :
    Unfolds files allowedRoots 0 rootDoc base (nested depth) (nested depth) := by
  induction depth with
  | zero => exact .scalar trivial
  | succ depth ih =>
      refine .array id fun item inside => ?_
      obtain rfl := List.mem_singleton.mp inside
      exact ih

set_option maxRecDepth 4000 in
/-- A document without references is refused as a possible cycle. -/
theorem nested_arrays_refused :
    ¬ (RefResolver.new petFiles "/d").DetectsCycles petFiles (.resolveValueTree (nested 65))
      (((RefResolver.new petFiles "/d").fresh.after petFiles []).answer petFiles
        (.resolveValueTree (nested 65))).2 := by
  intro detects
  have refused : (((RefResolver.new petFiles "/d").fresh.after petFiles []).answer petFiles
      (.resolveValueTree (nested 65))).2 =
        .error "maximum $ref resolution depth (64) exceeded — possible cycle" := by
    decide
  obtain ⟨resolved, answered⟩ :=
    (detects (nested 65) "/d" rfl).2 0 _ (Nat.zero_le _) (unfolds_nested 65 _ _)
  rw [refused] at answered
  cases answered

end SpecMock.Core
