import Cascade.Component.Compile
import Cascade.Proofs.Component.ClassNames
import Cascade.Proofs.Component.Document
import Cascade.Proofs.Json.Keys
import Cascade.Proofs.Json.Written

/-!
# The JSON of a compiled component

A compiled component is written as one object of two members, and reading the text gives just that
object (`Compiled.readsAs_json`). The class names are an object as well, so this needs that no
style occurs twice, and none does in a component that comes from a document that was read.
-/

namespace Cascade

namespace Compiled

/-- A compiled component as a JSON value. -/
def document (c : Compiled) : Value :=
  .object
    [("class_map", .object (c.classes.map fun (key, name) => (key, .str name))),
     ("css", .str c.css)]

theorem written_json (c : Compiled) : ∀ d ∈ c.json.toList, Json.Written d := by
  refine Json.written_writeObject 0 ?_
  simp only [List.forall_mem_cons]
  refine ⟨Json.written_writeObject 2 fun member hmember => ?_, Json.written_writeText _, nofun⟩
  obtain ⟨⟨key, name⟩, -, rfl⟩ := List.mem_map.mp hmember
  exact Json.written_writeText name

theorem readsAs_classes {classes : List (String × String)}
    (hkeys : (classes.map Prod.fst).Nodup) :
    Json.ReadsAs
      (Json.writeObject 2 (classes.map fun (key, name) => (key, Json.writeText name))).toList
      (.object (classes.map fun (key, name) => (key, .str name))) := by
  have hentries : ∀ entry ∈ classes.map fun (key, name) =>
      (key, Json.writeText name, Value.str name), Json.ReadsAs entry.2.1.toList entry.2.2 := by
    intro entry hentry
    obtain ⟨⟨key, name⟩, -, rfl⟩ := List.mem_map.mp hentry
    exact Json.readsAs_writeText name
  have hread := Json.readsAs_writeObject 2 _ hentries
  simp only [List.map_map, Function.comp_def] at hread
  rwa [Members.ofPairs_of_nodup (by simpa [Function.comp_def] using hkeys)] at hread

/-- The JSON of a compiled component is read as the component. -/
theorem readsAs_json {c : Compiled} (hkeys : (c.classes.map Prod.fst).Nodup) :
    Json.ReadsAs c.json.toList c.document := by
  refine Json.readsAs_writeObject 0 [("class_map", _, _), ("css", _, _)] ?_
  exact List.forall_mem_cons.mpr ⟨readsAs_classes hkeys,
    List.forall_mem_singleton.mpr (Json.readsAs_writeText c.css)⟩

end Compiled

namespace Component

/-- No style of a document has its class name listed twice. -/
theorem nodup_classes {document : Value} {settings : Settings} {compiled : Compiled}
    (hdocument : document.KeysDistinct)
    (h : (compileDocument document settings).outcome = .ok compiled) :
    (compiled.classes.map Prod.fst).Nodup := by
  obtain ⟨c, hread, hcompiled⟩ := compileDocument_ok_iff.mp h
  cases document with
  | object members =>
    obtain ⟨hfound, -, -⟩ := ofDocument_ok_iff.mp hread
    obtain ⟨hstyles, -⟩ := stylesOfDocument_ok_iff.mp hfound
    have hdistinct := (Value.keysDistinct_object_iff.mp hdocument).get? hstyles
    rw [map_fst_classes hcompiled]
    exact (Value.keysDistinct_object_iff.mp hdistinct).keys
  | _ => cases hread

end Component

end Cascade
