import Cascade.Layer
import Cascade.Style.Rule
import Cascade.Proofs.Sheet.Reader

/-!
# Rules as they are printed

`Rule.text` writes a rule so that the plain reader finds exactly this rule in it again, provided
the texts that go into it are free of the characters the reader goes by. `Rule.Clean` states that
proviso for one rule and what is inside it; the induction over it has one case for each way of
writing a rule. The block of a layer is one more block of the same form; it is left out only if
there are no rules for it, as a rule shows a brace whatever goes into it.
-/

namespace Cascade

/-! ## Plain texts -/

/-- A text without braces and semicolons. -/
def Plain (text : String) : Prop :=
  ∀ c ∈ text.toList, c ≠ '\x7b' ∧ c ≠ '\x7d' ∧ c ≠ ';'

instance (text : String) : Decidable (Plain text) :=
  List.decidableBAll _ text.toList

namespace Plain

variable {a b text : String}

theorem append_iff : Plain (a ++ b) ↔ Plain a ∧ Plain b := by
  simp only [Plain, String.toList_append, List.forall_mem_append]

theorem append (ha : Plain a) (hb : Plain b) : Plain (a ++ b) :=
  append_iff.mpr ⟨ha, hb⟩

theorem no_open (h : Plain text) : '\x7b' ∉ text.toList :=
  fun hmem => (h _ hmem).1 rfl

theorem no_close (h : Plain text) : '\x7d' ∉ text.toList :=
  fun hmem => (h _ hmem).2.1 rfl

theorem no_end (h : Plain text) : ';' ∉ text.toList :=
  fun hmem => (h _ hmem).2.2 rfl

theorem heads (h : Plain text) {first : Char} (hfirst : text.toList.head? = some first)
    (hvisible : Text.isBlank first = false) : Css.Heads text.toList := by
  obtain ⟨tail, htail⟩ := List.head?_eq_some_iff.mp hfirst
  exact ⟨⟨first, tail, htail, hvisible⟩, h.no_open, h.no_close⟩

end Plain

theorem AtRule.plain_keyword (rule : AtRule) : Plain rule.keyword := by
  cases rule <;> decide

theorem Layer.plain_name (layer : Layer) : Plain layer.name := by
  cases layer <;> decide

namespace Query

theorem plain_resolve {condition : String} (h : Plain condition) : Plain (resolve condition) := by
  have hqueries : ∀ entry ∈ breakpoints, Plain entry.2 := by decide
  have hopen : Plain "(min-width: " := by decide
  have hclose : Plain ")" := by decide
  exact forall_mem_resolve hqueries hopen hclose h

end Query

theorem AtRule.plain_query {rule : AtRule} {condition : String} (h : Plain condition) :
    Plain (rule.query condition) := by
  cases rule with
  | container => exact h
  | media => exact Query.plain_resolve h
  | supports => exact h

/-! ## Clean rules -/

namespace Declaration

/-- The declaration as the reader gives it back. -/
def pair (d : Declaration) : String × String :=
  (d.name, d.value)

structure Clean (d : Declaration) : Prop where
  name : Plain d.name
  no_colon : ':' ∉ d.name.toList
  value : Plain d.value

instance (d : Declaration) : Decidable d.Clean :=
  decidable_of_iff (Plain d.name ∧ ':' ∉ d.name.toList ∧ Plain d.value)
    ⟨fun ⟨hname, hcolon, hvalue⟩ => ⟨hname, hcolon, hvalue⟩,
      fun h => ⟨h.name, h.no_colon, h.value⟩⟩

theorem toList_text (d : Declaration) : d.text.toList = Css.declarationText d.pair := by
  simp [text, pair, Css.declarationText]

theorem toList_declarationsText (declarations : List Declaration) :
    (declarationsText declarations).toList =
      [' '].intercalate ((declarations.map pair).map Css.declarationText) := by
  rw [declarationsText, String.toList_intercalate, List.map_map, List.map_map]
  congr 1
  exact List.map_congr_left fun d _ => d.toList_text

variable {d : Declaration}

theorem Clean.separable (h : d.Clean) : Css.Separable d.pair :=
  ⟨h.no_colon, h.name.no_end, h.value.no_end⟩

theorem Clean.no_open (h : d.Clean) : '\x7b' ∉ Css.declarationText d.pair := by
  simp [Css.declarationText, pair, h.name.no_open, h.value.no_open]

theorem Clean.no_close (h : d.Clean) : '\x7d' ∉ Css.declarationText d.pair := by
  simp [Css.declarationText, pair, h.name.no_close, h.value.no_close]

end Declaration

namespace Rule

/-- A rule that the reader can tell from its surroundings, with all that is inside. -/
inductive Clean : Rule → Prop
  | style {selector : String} {declarations : List Declaration} (hselector : Plain selector)
      (hclass : selector.toList.head? = some '.') (hdeclarations : ∀ d ∈ declarations, d.Clean) :
      Clean (.style selector declarations)
  | group {rule : AtRule} {query : String} {rules : List Rule} (hquery : Plain query)
      (hne : rules ≠ []) (hrules : ∀ r ∈ rules, Clean r) : Clean (.group rule query rules)

/-- What the reader makes of a rule. -/
def item : Rule → Css.Item
  | .style selector declarations => .style selector (declarations.map Declaration.pair)
  | .group rule query rules => .block (rule.keyword ++ " " ++ query) (items rules)
where
  items : List Rule → List Css.Item
    | [] => []
    | r :: rest => r.item :: items rest

theorem items_eq_map (rules : List Rule) : item.items rules = rules.map item := by
  induction rules with
  | nil => rfl
  | cons r rest ih => rw [item.items, ih, List.map_cons]

theorem toList_text_style (selector : String) (declarations : List Declaration) :
    (Rule.style selector declarations).text.toList =
      Css.ruleText selector.toList
        ([' '].intercalate ((declarations.map Declaration.pair).map Css.declarationText)) := by
  rw [← Declaration.toList_declarationsText]
  simp [text, Css.ruleText]

/-- How a block of rules is written. -/
theorem toList_blockText (header separator : String) (rules : List Rule) :
    (header ++ " \x7b " ++ separator.intercalate (rules.map text) ++ " \x7d").toList =
      Css.ruleText header.toList
        (separator.toList.intercalate (rules.map fun r => r.text.toList)) := by
  simp [Css.ruleText, String.toList_intercalate, Function.comp_def]

/-- Clean rules in a block, with white space between them, are read back as the block. -/
theorem prints_block {header separator : String} {rules : List Rule} (hheader : Plain header)
    (hat : header.toList.head? = some '@') (hseparator : Text.isBlankText separator = true)
    (hne : rules ≠ []) (h : ∀ r ∈ rules, Css.Prints r.text.toList r.item) :
    Css.Prints
      (header ++ " \x7b " ++ separator.intercalate (rules.map text) ++ " \x7d").toList
      (.block header (rules.map item)) := by
  have hblanks : ∀ c ∈ separator.toList, Text.isBlank c = true := List.all_eq_true.mp hseparator
  rw [toList_blockText]
  exact Css.Prints.block (hheader.heads hat (by decide)) hblanks h hne

/-- What is printed for a clean rule is read back as that rule. -/
theorem Clean.prints {r : Rule} (h : r.Clean) : Css.Prints r.text.toList r.item := by
  induction h with
  | @style selector declarations hselector hclass hdeclarations =>
    rw [toList_text_style, item]
    refine Css.Prints.style (hselector.heads hclass (by decide)) fun pair hpair => ?_
    obtain ⟨d, hd, rfl⟩ := List.mem_map.mp hpair
    have hclean := hdeclarations d hd
    exact ⟨hclean.separable, hclean.no_open, hclean.no_close⟩
  | @group rule query rules hquery hne hrules ih =>
    have hheader : Plain (rule.keyword ++ " " ++ query) :=
      (rule.plain_keyword.append (by decide)).append hquery
    have hat : (rule.keyword ++ " " ++ query).toList.head? = some '@' := by
      cases rule <;> simp [AtRule.keyword]
    rw [text, texts_eq_map, item, items_eq_map]
    exact prints_block hheader hat (by decide) hne ih

end Rule

/-! ## Sheets -/

/-- A rule is never blank, whatever goes into it. -/
theorem Rule.open_mem_text (r : Rule) : '\x7b' ∈ r.text.toList := by
  cases r <;> simp [text]

/-- Joined rules are not blank, with any separator. -/
theorem Rule.isBlankText_intercalate {rules : List Rule} (h : rules ≠ []) (separator : String) :
    Text.isBlankText (separator.intercalate (rules.map text)) = false := by
  obtain ⟨r, hr⟩ := List.exists_mem_of_ne_nil _ h
  rw [Text.isBlankText, String.toList_intercalate, List.map_map, List.all_eq_false]
  exact ⟨'\x7b', Text.mem_intercalate_of_mem (List.mem_map_of_mem hr) r.open_mem_text, by decide⟩

namespace Layer

theorem wrap_of_ne_nil (layer : Layer) {rules : List Rule} (h : rules ≠ []) (separator : String) :
    layer.wrap (separator.intercalate (rules.map Rule.text)) =
      "@layer " ++ layer.name ++ " \x7b " ++ separator.intercalate (rules.map Rule.text) ++
        " \x7d" := by
  rw [wrap, wrapNamed, Rule.isBlankText_intercalate h, if_neg Bool.false_ne_true]

/-- The sheet that is printed for clean rules is read back as the block of its layer. -/
theorem read_wrap (layer : Layer) {separator : String} {rules : List Rule}
    (hseparator : Text.isBlankText separator = true) (h : ∀ r ∈ rules, r.Clean)
    (hne : rules ≠ []) :
    Css.read (layer.wrap (separator.intercalate (rules.map Rule.text))) =
      some [.block ("@layer " ++ layer.name) (rules.map Rule.item)] := by
  have hheader : Plain ("@layer " ++ layer.name) := .append (by decide) layer.plain_name
  have hat : ("@layer " ++ layer.name).toList.head? = some '@' := by simp
  rw [layer.wrap_of_ne_nil hne, Css.read]
  exact (Rule.prints_block hheader hat hseparator hne fun r hr => (h r hr).prints).readItems_eq

end Layer

end Cascade
