import ContractStubs.Proofs.Declaration.Rereading
import ContractStubs.Proofs.Json.Plain
import ContractStubs.Proofs.Text.Joined

/-!
# Written declarations

The members, the base types and the attributes of a declaration are plain documents. Those of a declaration that was
read are told by the documents they are written as (`MemberDeclaration.toJson_inj`, `TypeExpr.toJson_inj`,
`Attribute.toJson_inj`), since they are read back from them.
-/

namespace ContractStubs

theorem TypeExpr.isPlain_toJson (t : TypeExpr) : t.toJson.IsPlain := trivial

theorem Container.isPlain_toJson (c : Container) : c.toJson.IsPlain := by
  rw [toJson_eq]
  refine Json.isPlain_ofCells ?_
  simp only [cells, List.forall_mem_cons]
  exact ⟨isPlain_of_some trivial, isPlain_of_some trivial, isPlain_of_listCell fun text _ => Json.isPlain_string text,
    by simp⟩

theorem Attribute.isPlain_toJson (a : Attribute) : a.toJson.IsPlain := by
  rw [toJson_eq]
  refine Json.isPlain_ofCells ?_
  simp only [cells, List.forall_mem_cons]
  exact ⟨isPlain_of_some trivial, isPlain_of_listCell fun t _ => t.isPlain_toJson, by simp⟩

theorem ParameterDeclaration.isPlain_toJson (q : ParameterDeclaration) : q.toJson.IsPlain := by
  rw [toJson_eq]
  refine Json.isPlain_ofCells ?_
  simp only [cells, List.forall_mem_cons]
  exact ⟨isPlain_of_some trivial, isPlain_of_some q.type.isPlain_toJson, isPlain_of_map Json.isPlain_string,
    isPlain_of_map Json.isPlain_string, by simp⟩

theorem MemberDeclaration.isPlain_toJson (m : MemberDeclaration) : m.toJson.IsPlain := by
  rw [toJson_eq]
  refine Json.isPlain_ofCells ?_
  simp only [cells, List.forall_mem_cons]
  exact ⟨isPlain_of_some trivial, isPlain_of_some trivial, isPlain_of_some trivial,
    isPlain_of_listCell fun text _ => Json.isPlain_string text, isPlain_of_map TypeExpr.isPlain_toJson,
    isPlain_of_listCell fun q _ => q.isPlain_toJson, by simp⟩

theorem TypeExpr.toJson_inj {t u : TypeExpr} (ht : t.IsRead) (hu : u.IsRead) (h : t.toJson = u.toJson) : t = u :=
  Json.eq_of_toJson_eq (ofJson_toJson ht) (ofJson_toJson hu) h

theorem Attribute.toJson_inj {a b : Attribute} (ha : a.IsRead) (hb : b.IsRead) (h : a.toJson = b.toJson) : a = b :=
  Json.eq_of_toJson_eq (ofJson_toJson ha) (ofJson_toJson hb) h

/-- **What a member declares is told by the document it is written as.** -/
theorem MemberDeclaration.toJson_inj {m m' : MemberDeclaration} (hm : m.IsRead) (hm' : m'.IsRead)
    (h : m.toJson = m'.toJson) : m = m' :=
  Json.eq_of_toJson_eq (ofJson_toJson hm) (ofJson_toJson hm') h

end ContractStubs
