import Cascade.Proofs.Checksum
import Cascade.Proofs.Sheet.StyleByStyle
import Cascade.Text.Joined

/-!
# Class names

A class name is a kebab form, a hyphen and a short checksum. Kebab forms have hyphens of their
own, but the checksum has none, so the last hyphen parts the two; and the checksum is read back to
the size of a signed word. This tells exactly when two class names are the same
(`Name.ofStyle_inj`), and that the styles of a component have different ones as long as their
kebab forms differ (`class_names_collide_iff`).
-/

namespace Cascade

namespace Name

theorem toList_ofStyle (key : String) (number : Int) :
    (ofStyle key number).toList =
      (kebab key).toList ++ '-' :: (Checksum.short (key ++ toString number)).toList := by
  rw [ofStyle, String.toList_append, String.toList_append, List.append_assoc]
  rfl

theorem ofStyle_inj {key key' : String} {number number' : Int} :
    ofStyle key number = ofStyle key' number' ↔
      kebab key = kebab key'
        ∧ (Checksum.signed (key ++ toString number) = Checksum.signed (key' ++ toString number')
          ∨ Checksum.signed (key ++ toString number) =
            -Checksum.signed (key' ++ toString number')) := by
  have hhyphen : Base36.digitValue? '-' = none := by decide
  rw [← String.toList_inj, toList_ofStyle, toList_ofStyle,
    Text.append_separator_inj (Checksum.not_mem_short hhyphen _)
      (Checksum.not_mem_short hhyphen _),
    String.toList_inj, String.toList_inj, Checksum.short_inj]

end Name

namespace Component

variable {c : Component} {settings : Settings} {compiled : Compiled}

theorem classes_eq (h : (c.compile settings).outcome = .ok compiled) :
    compiled.classes = classNames c.styles.zipIdx := by
  obtain ⟨rules, -, rfl⟩ := compile_ok_iff.mp h
  rfl

theorem map_fst_classes (h : (c.compile settings).outcome = .ok compiled) :
    compiled.classes.map Prod.fst = c.styles.map Prod.fst := by
  rw [classes_eq h, classNames, List.map_map]
  conv_rhs => rw [← List.zipIdx_map_fst 0 c.styles, List.map_map]
  rfl

/-- Styles with different kebab forms have different class names, whatever their numbers. -/
theorem nodup_map_snd_classNames {entries : List ((String × Value) × Nat)}
    (h : (entries.map fun ((key, _), _) => Name.kebab key).Nodup) :
    ((classNames entries).map Prod.snd).Nodup := by
  have hkebab := List.pairwise_map.mp h
  rw [classNames, List.map_map]
  exact List.pairwise_map.mpr (hkebab.imp fun hne hsame => hne (Name.ofStyle_inj.mp hsame).1)

theorem nodup_map_snd_classes (hkebab : (c.styles.map fun (key, _) => Name.kebab key).Nodup)
    (h : (c.compile settings).outcome = .ok compiled) :
    (compiled.classes.map Prod.snd).Nodup := by
  rw [classes_eq h]
  refine nodup_map_snd_classNames ?_
  rw [← List.zipIdx_map_fst 0 c.styles, List.map_map] at hkebab
  exact hkebab

/-- **When class names are the same.** Two class names are the same exactly if the keys have the
same kebab form, and the signed checksums of key and number are equal or opposite. So a component
whose keys have different kebab forms has a class name of its own for each style, whatever the
checksums are. -/
theorem class_names_collide_iff :
    (∀ (key key' : String) (number number' : Int),
      Name.ofStyle key number = Name.ofStyle key' number' ↔
        Name.kebab key = Name.kebab key'
          ∧ (Checksum.signed (key ++ toString number) = Checksum.signed (key' ++ toString number')
            ∨ Checksum.signed (key ++ toString number) =
              -Checksum.signed (key' ++ toString number')))
    ∧ ∀ (c : Component) (settings : Settings) (compiled : Compiled),
      (c.styles.map fun (key, _) => Name.kebab key).Nodup →
      (c.compile settings).outcome = .ok compiled →
        compiled.classes.map Prod.fst = c.styles.map Prod.fst
          ∧ (compiled.classes.map Prod.snd).Nodup :=
  ⟨fun _ _ _ _ => Name.ofStyle_inj,
    fun _ _ _ hkebab h => ⟨map_fst_classes h, nodup_map_snd_classes hkebab h⟩⟩

/-- Two styles whose checksums are opposite, so that their class names end alike. -/
def lookalikes : Component where
  styles := [("boxToast", .object [("color", .str "red")]), ("logoutTableLogin", .object [])]

theorem class_names_collide_iff_lookalikes :
    Checksum.signed ("boxToast" ++ toString 0) =
      -Checksum.signed ("logoutTableLogin" ++ toString 1)
    ∧ Name.ofStyle "boxToast" 0 ≠ Name.ofStyle "logoutTableLogin" 1
    ∧ (lookalikes.styles.map fun (key, _) => Name.kebab key).Nodup
    ∧ ∃ compiled, (lookalikes.compile {}).outcome = .ok compiled
      ∧ (compiled.classes.map Prod.snd).Nodup := by
  have hkebab : (lookalikes.styles.map fun (key, _) => Name.kebab key).Nodup := by decide +kernel
  have hopposite : Checksum.signed ("boxToast" ++ toString 0) =
      -Checksum.signed ("logoutTableLogin" ++ toString 1) := by decide +kernel
  have hok : (lookalikes.compile {}).outcome = .ok _ := rfl
  obtain ⟨hcollide, hclasses⟩ := class_names_collide_iff
  refine ⟨hopposite, fun hsame => ?_, hkebab, _, hok, (hclasses lookalikes {} _ hkebab hok).2⟩
  exact absurd ((hcollide _ _ _ _).mp hsame).1 (by decide +kernel)

end Component

end Cascade
