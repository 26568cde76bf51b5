import Cascade.Command.Run
import Cascade.Proofs.Json.Keys

/-!
# What a file holds

`Holds data document` says which document the bytes of a file are: they are UTF-8 text, and the
text with its line ends unified is JSON. `compileBytes_of_holds` is the way of a command from
there on.
-/

namespace Cascade.Command

/-- The bytes are the text of a JSON document. -/
def Holds (data : ByteArray) (document : Value) : Prop :=
  ∃ content, String.fromUTF8? data = some content
    ∧ Json.read (Text.unifyNewlines content.toList) = .ok document

/-- The bytes are a text that is no JSON, for this problem at this position. -/
def Garbled (data : ByteArray) (problem : Json.Problem) (position : Nat) : Prop :=
  ∃ content, String.fromUTF8? data = some content
    ∧ Json.read (Text.unifyNewlines content.toList) = .error (.malformed problem position)

theorem fromUTF8?_toUTF8 (s : String) : String.fromUTF8? s.toUTF8 = some s := by
  rw [String.toUTF8_eq_toByteArray, String.fromUTF8?, dif_pos s.isValidUTF8]
  rfl

/-- A text without carriage returns is held as it is. -/
theorem holds_toUTF8 {text : String} {document : Value} (hcr : '\r' ∉ text.toList)
    (h : Json.read text.toList = .ok document) : Holds text.toUTF8 document :=
  ⟨text, fromUTF8?_toUTF8 text, by rwa [Text.unifyNewlines_of_not_mem hcr]⟩

variable {data : ByteArray} {document : Value}

/-- Bytes hold one document at most. -/
theorem Holds.unique {other : Value} (h : Holds data document) (hother : Holds data other) :
    document = other := by
  obtain ⟨content, hcontent, hread⟩ := h
  obtain ⟨again, hagain, hother⟩ := hother
  obtain rfl := Option.some.inj (hcontent.symm.trans hagain)
  exact Except.ok.inj (hread.symm.trans hother)

theorem Holds.keysDistinct (h : Holds data document) : document.KeysDistinct := by
  obtain ⟨content, -, hread⟩ := h
  exact Json.read_keysDistinct hread

theorem keysDistinct_withLayer (h : document.KeysDistinct) (layer : Option Layer) :
    (withLayer layer document).KeysDistinct := by
  fun_cases withLayer layer document with
  | case1 layer members =>
    exact Value.keysDistinct_object_iff.mpr
      ((Value.keysDistinct_object_iff.mp h).set "layer" (.str layer.name))
  | case2 => exact h

theorem compileBytes_of_holds (h : Holds data document) (verbose : Bool) (file : String)
    (layer : Option Layer) (asJson : Bool) :
    compileBytes verbose file layer asJson data =
      printCompiled verbose asJson (withLayer layer document) := by
  obtain ⟨content, hcontent, hread⟩ := h
  simp only [compileBytes, hcontent, hread]

end Cascade.Command
