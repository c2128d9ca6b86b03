import SpecMock.Library.TemplatePieces
import SpecMock.Runtime.LocationHeaders
import SpecMock.Runtime.Namespaces

/-!
# Templates in one pass

Namespaces and `Location` headers are bound by two scanners of their own.  Both
replace the names of the one way to cut a template into pieces, each by its
value or by itself, and look at nothing they have put in its place.
-/

namespace SpecMock.Runtime

open SpecMock.Library SpecMock.Core

theorem bindNamespace_eq_fillPieces {template : String} {pieces : List Template.Piece}
    (cut : Template.Tokenises template.toList pieces) (params : PathParams) :
    bindNamespace template params =
      String.ofList (Template.fillPieces (boundText params) pieces) := by
  rw [← cut.fill_scan, ← String.ofList_toList (s := bindNamespace template params),
    bindNamespace_toList]
  rfl

/-- Without bindings every name stands for itself. -/
theorem boundText_empty : boundText ∅ = Template.braced := rfl

/--
Both scanners fill the pieces of the template, of which there is one list, in
one pass, and leave it alone where there is nothing to bind.
-/
theorem bindings_single_pass (template : String) (params : PathParams) :
    bindNamespace template params = substitutePathParams template params ∧
    (∃! pieces, Template.Tokenises template.toList pieces) ∧
    (∀ pieces, Template.Tokenises template.toList pieces →
      bindNamespace template params =
          String.ofList (Template.fillPieces (boundText params) pieces) ∧
        substitutePathParams template params =
          String.ofList (Template.fillPieces (boundText params) pieces)) ∧
    bindNamespace template ∅ = template ∧ substitutePathParams template ∅ = template := by
  obtain ⟨pieces, cut⟩ := Template.exists_tokenises template.toList
  have unbound : bindNamespace template ∅ = template := by
    rw [bindNamespace_eq_fillPieces cut, boundText_empty, cut.fillPieces_braced,
      String.ofList_toList]
  refine ⟨(substitutePathParams_eq template params).symm,
    Template.existsUnique_tokenises template.toList, ?_, unbound, ?_⟩
  · intro pieces cut
    refine ⟨bindNamespace_eq_fillPieces cut params, ?_⟩
    rw [substitutePathParams_eq]
    exact bindNamespace_eq_fillPieces cut params
  · rw [substitutePathParams_eq]
    exact unbound

end SpecMock.Runtime
