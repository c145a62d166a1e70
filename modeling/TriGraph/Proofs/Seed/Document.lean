import TriGraph.Proofs.Knowledge.Outcomes
import TriGraph.Proofs.Seed.Steps
import TriGraph.Proofs.Value.Document
import TriGraph.Seed.Document

/-!
# Seeds written and read again

Records by name or by position, several spellings of a kind, and fields with a default all come to one seed, and what
is written of it is read as the same seed again.
-/

namespace TriGraph

open Document (Rereads fields?_object mapM_map_self required withDefault optional listOf text? texts ofOption)

/-! ## Names and texts -/

theorem ContextKind.eq_of_ofName {s name : String} (h : ofName s = .custom name) : name = s := by
  unfold ofName at h
  split at h <;> cases h
  rfl

theorem ContextKind.ofName_name (s : String) : ofName (ofName s).name = ofName s := by
  cases h : ofName s with
  | temporal => decide +kernel
  | spatial => decide +kernel
  | perspective => decide +kernel
  | custom name =>
    obtain rfl := eq_of_ofName h
    exact h

theorem Index.Kind.ofName?_name (k : Index.Kind) : ofName? k.name = some k := by
  cases k <;> rfl

theorem Document.listOf_texts (ss : List String) : listOf text? (texts ss) = some ss := by
  have htexts : (ss.map Document.text).mapM text? = some ss := mapM_map_self fun _ _ => rfl
  exact htexts

theorem Document.optional_ofOption (s : Option String) : optional text? (some (ofOption .text s)) = some s := by
  cases s <;> rfl

namespace Seed

/-! ## Items -/

theorem ConceptItem.rereads : Rereads ofDocument? toDocument := by
  intro d i hd h
  unfold ofDocument? at h
  split at h
  · rename_i hfields
    simp only [bind, Option.bind_eq_some_iff, Option.some.injEq] at h
    obtain ⟨id, -, ps, hps, parents, -, rfl⟩ := h
    -- texts are read back whatever they are; it is the properties that have to come from JSON
    have hps := Properties.rereads.field rfl hd hfields (by simp) hps
    have hwritten : (toDocument { id, properties := ps, parents }).fields? (names conceptFields) =
        some [some (.text id), some (Properties.toDocument ps), some (texts parents)] := fields?_object rfl (by decide)
    simp [ofDocument?, hwritten, required, withDefault, text?, hps, Document.listOf_texts]
  · cases h

theorem RelationTypeItem.rereads : Rereads ofDocument? toDocument := by
  intro d i hd h
  unfold ofDocument? at h
  split at h
  · rename_i hfields
    simp only [bind, Option.bind_eq_some_iff, Option.some.injEq] at h
    obtain ⟨id, -, ps, hps, domain, -, range, -, rfl⟩ := h
    have hps := Properties.rereads.field rfl hd hfields (by simp) hps
    have hwritten : (toDocument { id, properties := ps, domain, range }).fields? (names relationTypeFields) =
        some [some (.text id), some (Properties.toDocument ps), some (ofOption .text domain),
          some (ofOption .text range)] := fields?_object rfl (by decide)
    simp [ofDocument?, hwritten, required, withDefault, text?, hps, Document.optional_ofOption]
  · cases h

theorem ContextItem.rereads : Rereads ofDocument? toDocument := by
  intro d i hd h
  unfold ofDocument? at h
  split at h
  · rename_i hfields
    simp only [bind, Option.bind_eq_some_iff, Option.some.injEq] at h
    obtain ⟨id, -, kind, -, ps, hps, rfl⟩ := h
    have hps := Properties.rereads.field rfl hd hfields (by simp) hps
    have hwritten : (toDocument { id, kind := .ofName kind, properties := ps }).fields? (names contextFields) =
        some [some (.text id), some (.text (ContextKind.ofName kind).name), some (Properties.toDocument ps)] :=
      fields?_object rfl (by decide)
    simp [ofDocument?, hwritten, required, withDefault, text?, hps, ContextKind.ofName_name]
  · cases h

theorem ContextRelationItem.rereads : Rereads ofDocument? toDocument := by
  intro d i hd h
  unfold ofDocument? at h
  split at h
  · rename_i hfields
    simp only [bind, Option.bind_eq_some_iff, Option.some.injEq] at h
    obtain ⟨source, -, target, -, type, -, ps, hps, rfl⟩ := h
    have hps := Properties.rereads.field rfl hd hfields (by simp) hps
    have hwritten : (toDocument { source, target, type, properties := ps }).fields? (names contextRelationFields) =
        some [some (.text source), some (.text target), some (.text type), some (Properties.toDocument ps)] :=
      fields?_object rfl (by decide)
    simp [ofDocument?, hwritten, required, withDefault, text?, hps]
  · cases h

theorem EntityItem.rereads : Rereads ofDocument? toDocument := by
  intro d i hd h
  unfold ofDocument? at h
  split at h
  · rename_i hfields
    simp only [bind, Option.bind_eq_some_iff, Option.some.injEq] at h
    obtain ⟨id, -, concept, -, ps, hps, rfl⟩ := h
    have hps := Properties.rereads.field rfl hd hfields (by simp) hps
    have hwritten : (toDocument { id, concept, properties := ps }).fields? (names entityFields) =
        some [some (.text id), some (.text concept), some (Properties.toDocument ps)] := fields?_object rfl (by decide)
    simp [ofDocument?, hwritten, required, withDefault, text?, hps]
  · cases h

theorem RelationItem.rereads : Rereads ofDocument? toDocument := by
  intro d i hd h
  unfold ofDocument? at h
  split at h
  · rename_i hfields
    simp only [bind, Option.bind_eq_some_iff, Option.some.injEq] at h
    obtain ⟨id, -, source, -, type, -, target, -, ps, hps, rfl⟩ := h
    have hps := Properties.rereads.field rfl hd hfields (by simp) hps
    have hwritten : (toDocument { id, source, type, target, properties := ps }).fields? (names relationFields) =
        some [some (ofOption .text id), some (.text source), some (.text type), some (.text target),
          some (Properties.toDocument ps)] := fields?_object rfl (by decide)
    simp [ofDocument?, hwritten, required, withDefault, text?, hps, Document.optional_ofOption]
  · cases h

theorem IndexItem.ofDocument?_toDocument (i : IndexItem) : ofDocument? i.toDocument = some i := by
  have hwritten : i.toDocument.fields? (names indexFields) =
      some [some (.text i.layer.name), some (.text i.name), some (.text i.kind.name), some (texts i.paths)] :=
    fields?_object rfl (by decide)
  have hlayer : Layer.ofName? i.layer.name = some i.layer := Layer.ofName?_eq_some.mpr rfl
  simp [ofDocument?, hwritten, required, Document.caseName?, text?, hlayer, Index.Kind.ofName?_name,
    Document.listOf_texts]

theorem IndexItem.rereads : Rereads ofDocument? toDocument :=
  fun _ i _ _ => ofDocument?_toDocument i

/-! ## Seeds -/

theorem rereads : Rereads ofDocument? toDocument := by
  intro d s hd h
  unfold ofDocument? at h
  split at h
  · rename_i hfields
    simp only [bind, Option.bind_eq_some_iff, Option.some.injEq] at h
    obtain ⟨name, -, concepts, hconcepts, types, htypes, contexts, hcontexts, links, hlinks, entities, hentities,
      relations, hrelations, indexes, hindexes, rfl⟩ := h
    -- a section that was left out is written as an empty list
    have hconcepts := ConceptItem.rereads.list.field rfl hd hfields (by simp) hconcepts
    have htypes := RelationTypeItem.rereads.list.field rfl hd hfields (by simp) htypes
    have hcontexts := ContextItem.rereads.list.field rfl hd hfields (by simp) hcontexts
    have hlinks := ContextRelationItem.rereads.list.field rfl hd hfields (by simp) hlinks
    have hentities := EntityItem.rereads.list.field rfl hd hfields (by simp) hentities
    have hrelations := RelationItem.rereads.list.field rfl hd hfields (by simp) hrelations
    have hindexes := IndexItem.rereads.list.field rfl hd hfields (by simp) hindexes
    have hwritten : (toDocument ⟨name, concepts, types, contexts, links, entities, relations, indexes⟩).fields?
        (names fields) = some [some (.text name), some (itemList ConceptItem.toDocument concepts),
          some (itemList RelationTypeItem.toDocument types), some (itemList ContextItem.toDocument contexts),
          some (itemList ContextRelationItem.toDocument links), some (itemList EntityItem.toDocument entities),
          some (itemList RelationItem.toDocument relations), some (itemList IndexItem.toDocument indexes)] :=
      fields?_object rfl (by decide)
    simp [ofDocument?, hwritten, withDefault, text?, itemList, hconcepts, htypes, hcontexts, hlinks, hentities,
      hrelations, hindexes]
  · cases h

/-- What a seed read from JSON is written as is read as the same seed; if its relations have ids, the same is built
from both documents, or the same error comes of both. -/
theorem read_again_after_writing {d : Document} (hd : d.IsJson) {s : Seed} (h : ofDocument? d = some s) :
    ofDocument? s.toDocument = some s ∧
      (s.Explicit → ∀ fresh fresh' : Nat → String,
        (ofDocument? s.toDocument).map (build fresh') = (ofDocument? d).map (build fresh)) := by
  have hs : ofDocument? s.toDocument = some s := rereads hd h
  refine ⟨hs, fun hids fresh fresh' => ?_⟩
  rw [hs, h, Option.map_some, Option.map_some, build, build, hids.apply_eq fresh' fresh]

def irregular : Document :=
  .object [("version", .int 2),
    ("contexts", .list [.list [.text "old", .text "TEMPORAL"],
      .object [("kind", .text "spatialContext"), ("id", .text "here")],
      .object [("id", .text "iron"), ("kind", .text "Era"),
        ("properties", .object [("size", .text "big"), ("age", .float 1.0), ("size", .int 18446744073709551615)])]]),
    ("concepts", .list [.list [.text "a"], .object [("id", .text "b"), ("parents", .list [.text "a"])]]),
    ("relation_types", .list [.object [("id", .text "likes"), ("range", .null), ("domain", .text "a")]]),
    ("entities", .list [.list [.text "x", .text "a"], .list [.text "y", .text "b", .object []]]),
    ("relations", .list [.list [.text "r", .text "x", .text "likes", .text "y"]]),
    ("indexes", .list [.object [("paths", .list [.text "node.properties.size"]), ("kind", .object [("btree", .null)]),
      ("name", .text "sizes"), ("graph", .text "context")]])]

theorem isJson_irregular : irregular.IsJson := by
  have hone : Number.isFinite 1.0 = true := by decide +kernel
  simp [irregular, Document.isJson_list, Document.isJson_object, Document.IsJson.text, Document.IsJson.null,
    Document.IsJson.int, Document.IsJson.float hone]

theorem read_again_after_writing_irregular :
    irregular.IsJson ∧ ∃ s, ofDocument? irregular = some s ∧ s.Explicit ∧
      s.contexts.map (·.kind) = [.temporal, .spatial, .custom "Era"] ∧ s.indexes.map (·.kind) = [.ordered] ∧
      ofDocument? s.toDocument = some s ∧
      (ofDocument? s.toDocument).map (build fun _ => "fresh") = (ofDocument? irregular).map (build fun _ => "") := by
  have hread : (ofDocument? irregular).map (fun s => (s.relations.all (·.id.isSome), s.contexts.map (·.kind),
      s.indexes.map (·.kind))) = some (true, [.temporal, .spatial, .custom "Era"], [.ordered]) := by decide +kernel
  obtain ⟨s, hs, hparts⟩ := Option.map_eq_some_iff.mp hread
  obtain ⟨hids, hkinds⟩ := Prod.mk.inj hparts
  obtain ⟨hcontexts, hindexes⟩ := Prod.mk.inj hkinds
  have hexplicit : s.Explicit := List.all_eq_true.mp hids
  obtain ⟨hagain, hbuild⟩ := read_again_after_writing isJson_irregular hs
  exact ⟨isJson_irregular, s, hs, hexplicit, hcontexts, hindexes, hagain, hbuild hexplicit _ _⟩

end Seed

end TriGraph
