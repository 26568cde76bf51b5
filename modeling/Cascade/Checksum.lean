import Cascade.Number.Base36
import Cascade.Text.Character

/-!
# Checksums

Two rolling checksums over the 16-bit code units of a text, both in 32-bit words. The first goes
into class names, the second identifies style texts. Neither is meant to resist an adversary.
-/

namespace Cascade.Checksum

/-- The word `h * 31 + unit`, rolled over all units from zero. -/
def rolling (s : String) : UInt32 :=
  (Text.units s).foldl (fun h u => h * 31 + u.toUInt32) 0

/-- The rolling word as a number of either sign, nearest to zero. -/
def signed (s : String) : Int :=
  Int.bmod (rolling s).toNat UInt32.size

/-- A short name for a text: the size of its signed checksum in base 36, cut to six characters. -/
def short (s : String) : String :=
  String.ofList ((Base36.encode (signed s).natAbs).toList.take 6)

/-- One step of `mix`. -/
def mixUnit (h : UInt32) (u : UInt16) : UInt32 :=
  (h * 33) ^^^ u.toUInt32

/-- The word `(h * 33) xor unit`, rolled over all units from 5381. -/
def mix (s : String) : UInt32 :=
  (Text.units s).foldl mixUnit 5381

/-- The mixed checksum of a style text in base 36. -/
def ofCss (css : String) : String :=
  Base36.encode (mix css).toNat

end Cascade.Checksum
