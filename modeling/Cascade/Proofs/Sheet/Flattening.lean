import Cascade.Component.Compile
import Cascade.Proofs.Sheet.Printed
import Cascade.Proofs.Style.Blame

/-!
# The sheet of a component and its style trees

A component's sheet, read back by the plain reader, says what its style trees say: one style rule
for each node with properties, under the conditions that lead to the node, for the class with the
nested keys on the way behind it, and with exactly the node's properties.

Both sides are listed as `Css.StyleRule`s. `Css.flatten` lists the items that were read, and
`Component.flattening` lists the nodes of the trees by their addresses, with nothing sorted,
nested or printed. `Block.flatten_rules` is the induction over the tree that brings the two
together.
-/

namespace Cascade

/-! ## Style rules -/

/-- A style rule with the headers of the blocks around it, the outermost first. -/
structure Css.StyleRule where
  context : List String
  selector : String
  declarations : List (String × String)
  deriving DecidableEq, Repr

namespace Css

mutual

def Item.flatten (context : List String) : Item → List StyleRule
  | .style selector declarations => [⟨context, selector, declarations⟩]
  | .block header items => flatten (context ++ [header]) items

/-- The style rules among items, in the order in which they stand. -/
def flatten (context : List String) : List Item → List StyleRule
  | [] => []
  | item :: rest => item.flatten context ++ flatten context rest

end

theorem flatten_eq_flatMap (context : List String) (items : List Item) :
    flatten context items = items.flatMap (Item.flatten context) := by
  induction items with
  | nil => rfl
  | cons item rest ih => rw [flatten, ih, List.flatMap_cons]

@[simp] theorem flatten_append (context : List String) (a b : List Item) :
    flatten context (a ++ b) = flatten context a ++ flatten context b := by
  simp only [flatten_eq_flatMap, List.flatMap_append]

theorem flatten_flatMap {α : Type} (context : List String) (l : List α) (f : α → List Item) :
    flatten context (l.flatMap f) = l.flatMap fun a => flatten context (f a) := by
  simp only [flatten_eq_flatMap, List.flatMap_assoc]

end Css

/-- A clean rule is never read as nothing. -/
theorem Rule.Clean.flatten_ne_nil {r : Rule} (h : r.Clean) (context : List String) :
    r.item.flatten context ≠ [] := by
  induction h generalizing context with
  | style => simp [item, Css.Item.flatten]
  | @group rule query rules _ hne _ ih =>
    intro hnil
    rw [item, items_eq_map, Css.Item.flatten, Css.flatten_eq_flatMap,
      List.flatMap_eq_nil_iff] at hnil
    obtain ⟨r, hr⟩ := List.exists_mem_of_ne_nil _ hne
    exact ih r hr _ (hnil _ (List.mem_map_of_mem hr))

/-! ## What a tree says -/

namespace Branch

/-- The key or condition that is written for a branch. -/
def text : Branch → String
  | nested key => key
  | under _ condition => condition

/-- What a branch adds to the selector: a nested key without the `&` that stands for the parent. -/
def suffix : Branch → String
  | nested key =>
    match key.toList with
    | '&' :: rest => String.ofList rest
    | _ => key
  | under _ _ => ""

/-- The header of the block that a branch opens. -/
def header? : Branch → Option String
  | nested _ => none
  | under rule condition => some (rule.keyword ++ " " ++ rule.query condition)

end Branch

namespace Members

/-- The style rule of a node: none if it has no properties. -/
def nodeRules (context : List String) (selector : String) (path : List Branch) (node : Members) :
    List Css.StyleRule :=
  if node.properties.isEmpty then []
  else [{
    context := context ++ path.filterMap Branch.header?
    selector := selector ++ String.join (path.map Branch.suffix)
    declarations :=
      node.properties.map fun (key, value) => (Name.kebab key, value.declared key) }]

/-- The style rules of a tree, node by node. -/
def flattening (context : List String) (selector : String) (style : Members) :
    List Css.StyleRule :=
  style.nodes.flatMap fun (path, node) => nodeRules context selector path node

/-- Nothing that the tree emits behind `start` has braces or semicolons, and no name of a property
has a colon. Whatever leads to no properties is not emitted and may be anything. -/
def EmitsPlain (start : String) (style : Members) : Prop :=
  ∀ path node, Reaches style path node → node.properties ≠ [] →
    Plain start ∧ (∀ branch ∈ path, Plain branch.text)
      ∧ ∀ entry ∈ node.properties, (Declaration.ofMember entry).Clean

end Members

namespace Container

/-- What can be said about a container. -/
def parts (c : Container) : List (String × Value) :=
  [("container-name", c.name), ("container-type", c.type)]

/-- The style rule of a container: none if nothing is given. -/
def flattening (selector : String) (c : Container) : List Css.StyleRule :=
  let given := c.parts.filter fun (_, value) => value.isTruthy
  if given.isEmpty then []
  else [⟨[], selector, given.map fun (name, value) => (name, value.text)⟩]

end Container

namespace Component

/-- The style rules of a component: that of its container, then those of its style trees. -/
def flattening (c : Component) (settings : Settings) : List Css.StyleRule :=
  (c.container.toList.flatMap (·.flattening ("." ++ settings.containerSelector)))
    ++ c.styles.zipIdx.flatMap fun ((key, style), i) =>
      style.members?.toList.flatMap (Members.flattening [] ("." ++ Name.ofStyle key i))

/-- Nothing that the component emits has braces or semicolons, and no name of a property has a
colon. -/
structure EmitsPlain (c : Component) (settings : Settings) : Prop where
  container : ∀ container ∈ c.container, ∀ part ∈ container.parts, part.2.isTruthy = true →
    Plain settings.containerSelector ∧ Plain part.2.text
  styles : ∀ key members i, ((key, .object members), i) ∈ c.styles.zipIdx →
    Members.EmitsPlain (Name.ofStyle key i) members

/-- Every style is an object and its tree is well formed. -/
def WellFormed (c : Component) : Prop :=
  ∀ entry ∈ c.styles, ∃ members : Members, entry.2 = .object members ∧ members.WellFormed

end Component

/-! ## One tree -/

namespace Branch

theorem selector_eq (parent : String) (branch : Branch) :
    branch.selector parent = parent ++ branch.suffix := by
  cases branch with
  | nested key =>
    simp only [selector, suffix, Selector.nest]
    rcases key.toList with _ | ⟨c, rest⟩
    · rfl
    · by_cases hc : c = '&'
      · subst hc
        rfl
      · simp [hc]
  | under rule condition => simp [selector, suffix]

theorem mem_text_of_mem_suffix {branch : Branch} {c : Char} (h : c ∈ branch.suffix.toList) :
    c ∈ branch.text.toList := by
  cases branch with
  | nested key =>
    simp only [suffix] at h
    split at h
    · rename_i rest hkey
      rw [String.toList_ofList] at h
      show c ∈ key.toList
      rw [hkey]
      exact List.mem_cons_of_mem _ h
    · exact h
  | under rule condition => cases h

theorem plain_suffix {branch : Branch} (h : Plain branch.text) : Plain branch.suffix :=
  fun c hc => h c (mem_text_of_mem_suffix hc)

theorem flatten_enclose (context : List String) (branch : Branch) (rules : List Rule) :
    Css.flatten context ((branch.enclose rules).map Rule.item) =
      Css.flatten (context ++ branch.header?.toList) (rules.map Rule.item) := by
  cases branch with
  | nested key => simp [enclose, header?]
  | under rule condition =>
    cases rules with
    | nil => rfl
    | cons r rest =>
      simp [enclose, header?, Rule.ofGroup, Rule.item, Rule.items_eq_map, Css.flatten,
        Css.Item.flatten]

theorem clean_enclose {branch : Branch} {rules : List Rule}
    (hbranch : rules ≠ [] → Plain branch.text) (h : ∀ r ∈ rules, r.Clean) :
    ∀ r ∈ branch.enclose rules, r.Clean := by
  cases branch with
  | nested key => exact h
  | under rule condition =>
    intro r hr
    rw [enclose, Rule.ofGroup] at hr
    split at hr
    · cases hr
    · rename_i hne
      have hne : rules ≠ [] := by simpa using hne
      obtain rfl := List.mem_singleton.mp hr
      exact .group (AtRule.plain_query (hbranch hne)) hne h

end Branch

namespace Members

theorem nodeRules_cons (context : List String) (selector : String) (branch : Branch)
    (path : List Branch) (node : Members) :
    nodeRules context selector (branch :: path) node =
      nodeRules (context ++ branch.header?.toList) (selector ++ branch.suffix) path node := by
  have hcontext : (branch :: path).filterMap Branch.header? =
      branch.header?.toList ++ path.filterMap Branch.header? := by
    cases branch <;> rfl
  have hselector : String.join ((branch :: path).map Branch.suffix) =
      branch.suffix ++ String.join (path.map Branch.suffix) := by
    simp
  rw [nodeRules, nodeRules, hcontext, hselector, List.append_assoc, String.append_assoc]

theorem flattening_eq (context : List String) (selector : String) (style : Members) :
    style.flattening context selector =
      nodeRules context selector [] style ++ style.children.flatMap fun (branch, inner) =>
        inner.flattening (context ++ branch.header?.toList) (selector ++ branch.suffix) := by
  rw [flattening, nodes_eq, List.flatMap_cons, List.flatMap_assoc]
  congr 1
  refine List.flatMap_congr fun child _ => ?_
  obtain ⟨branch, inner⟩ := child
  simp only [flattening, List.flatMap_map, nodeRules_cons]

theorem EmitsPlain.of_children {start : String} {style : Members} (hstart : Plain start)
    (hentries : ∀ entry ∈ style.properties, (Declaration.ofMember entry).Clean)
    (hchildren : ∀ child ∈ style.children, Plain child.1.text ∧ child.2.EmitsPlain start) :
    style.EmitsPlain start := by
  intro path node hreach hproperties
  rcases reaches_iff.mp hreach with ⟨rfl, rfl⟩ | ⟨branch, inner, rest, rfl, hchild, hrest⟩
  · exact ⟨hstart, List.forall_mem_nil _, hentries⟩
  · obtain ⟨hbranch, hinner⟩ := hchildren _ hchild
    obtain ⟨-, hpath, hnode⟩ := hinner rest node hrest hproperties
    exact ⟨hstart, List.forall_mem_cons.mpr ⟨hbranch, hpath⟩, hnode⟩

theorem EmitsPlain.child {start : String} {style inner : Members} {branch : Branch}
    (h : style.EmitsPlain start) (hchild : (branch, inner) ∈ style.children) :
    inner.EmitsPlain (start ++ branch.suffix) := by
  intro path node hreach hproperties
  obtain ⟨hstart, hpath, hentries⟩ := h _ node (.child hchild hreach) hproperties
  obtain ⟨hbranch, hpath⟩ := List.forall_mem_cons.mp hpath
  exact ⟨hstart.append (Branch.plain_suffix hbranch), hpath, hentries⟩

theorem EmitsPlain.branch {start : String} {style inner : Members} {branch : Branch}
    (h : style.EmitsPlain start) (hchild : (branch, inner) ∈ style.children)
    (hinner : ¬ inner.Silent) : Plain branch.text := by
  simp only [Silent, Everywhere, not_forall] at hinner
  obtain ⟨path, node, hreach, hproperties⟩ := hinner
  obtain ⟨-, hpath, -⟩ := h _ node (.child hchild hreach) hproperties
  exact hpath branch List.mem_cons_self

theorem EmitsPlain.prefixed {start front : String} {style : Members} (h : style.EmitsPlain start)
    (hfront : Plain front) : style.EmitsPlain (front ++ start) := by
  intro path node hreach hproperties
  obtain ⟨hstart, hrest⟩ := h path node hreach hproperties
  exact ⟨hfront.append hstart, hrest⟩

end Members

namespace Block

/-- The rules of a tree, read as items, are its nodes. -/
theorem flatten_rules {style : Members} (h : style.WellFormed) (context : List String)
    (selector : String) :
    Css.flatten context (((ofMembers style).rules selector).map Rule.item) =
      style.flattening context selector := by
  induction style using Members.treeInduction generalizing context selector with
  | step style ih =>
    obtain ⟨-, hchildren⟩ := Members.everywhere_iff.mp h
    rw [rules_ofMembers_of_wellFormed h, List.map_append, Css.flatten_append,
      Members.flattening_eq, List.map_flatMap, Css.flatten_flatMap]
    congr 1
    · cases hproperties : style.properties with
      | nil => simp [Rule.ofDeclarations, Members.nodeRules, hproperties, Css.flatten]
      | cons entry rest =>
        simp [Rule.ofDeclarations, Members.nodeRules, hproperties, Css.flatten, Css.Item.flatten,
          Rule.item, Declaration.pair, Declaration.ofMember]
    · refine List.flatMap_congr fun child hchild => ?_
      rw [childRules, Branch.flatten_enclose, Branch.selector_eq,
        ih child hchild (hchildren child hchild)]

theorem clean_rules {style : Members} (h : style.WellFormed) {selector : String}
    (hclass : selector.toList.head? = some '.') (hplain : style.EmitsPlain selector) :
    ∀ r ∈ (ofMembers style).rules selector, r.Clean := by
  induction style using Members.treeInduction generalizing selector with
  | step style ih =>
    obtain ⟨-, hchildren⟩ := Members.everywhere_iff.mp h
    rw [rules_ofMembers_of_wellFormed h]
    intro r hr
    rcases List.mem_append.mp hr with hr | hr
    · rw [Rule.ofDeclarations] at hr
      split at hr
      · cases hr
      · rename_i hne
        have hne : style.properties ≠ [] := by simpa using hne
        obtain ⟨hselector, -, hentries⟩ := hplain [] style (.here style) hne
        obtain rfl := List.mem_singleton.mp hr
        refine .style hselector hclass fun d hd => ?_
        obtain ⟨entry, hentry, rfl⟩ := List.mem_map.mp hd
        exact hentries entry hentry
    · obtain ⟨⟨branch, inner⟩, hchild, hr⟩ := List.mem_flatMap.mp hr
      have hinner := hchildren _ hchild
      refine Branch.clean_enclose (fun hne => ?_) ?_ r hr
      -- A block stands only around rules, so something inside is declared and the branch is
      -- emitted.
      · exact hplain.branch hchild ((rules_eq_nil_iff_silent hinner _).not.mp hne)
      · refine ih _ hchild hinner ?_ ?_
        · rw [Branch.selector_eq, String.toList_append, List.head?_append, hclass]
          rfl
        · rw [Branch.selector_eq]
          exact hplain.child hchild

end Block

/-! ## The container -/

namespace Container

theorem declarations_eq (c : Container) :
    c.declarations =
      (c.parts.filter fun (_, value) => value.isTruthy).map
        fun (name, value) => ⟨name, value.text⟩ := by
  cases hname : c.name.isTruthy <;> cases htype : c.type.isTruthy <;>
    simp [declarations, parts, hname, htype]

theorem flatten_ofDeclarations (selector : String) (c : Container) :
    Css.flatten [] ((Rule.ofDeclarations selector c.declarations).map Rule.item) =
      c.flattening selector := by
  rw [declarations_eq, flattening]
  cases c.parts.filter fun (_, value) => value.isTruthy with
  | nil => rfl
  | cons part rest =>
    simp [Rule.ofDeclarations, Css.flatten, Css.Item.flatten, Rule.item, Declaration.pair]

theorem clean_ofDeclarations {containerSelector : String} {c : Container}
    (h : ∀ part ∈ c.parts, part.2.isTruthy = true →
      Plain containerSelector ∧ Plain part.2.text) :
    ∀ r ∈ Rule.ofDeclarations ("." ++ containerSelector) c.declarations, r.Clean := by
  have hnames : ∀ part ∈ c.parts, Plain part.1 ∧ ':' ∉ part.1.toList := by
    simp only [parts, List.forall_mem_cons]
    decide
  rw [declarations_eq, Rule.ofDeclarations]
  split
  · exact List.forall_mem_nil _
  · rename_i hne
    intro r hr
    obtain rfl := List.mem_singleton.mp hr
    have hselector : Plain containerSelector := by
      obtain ⟨part, hpart⟩ := List.exists_mem_of_ne_nil _
        (List.map_eq_nil_iff.not.mp (List.isEmpty_iff.not.mp hne))
      obtain ⟨hmem, htruthy⟩ := List.mem_filter.mp hpart
      exact (h part hmem htruthy).1
    refine .style (.append (by decide) hselector) (by simp) fun d hd => ?_
    obtain ⟨part, hpart, rfl⟩ := List.mem_map.mp hd
    obtain ⟨hmem, htruthy⟩ := List.mem_filter.mp hpart
    exact ⟨(hnames part hmem).1, (hnames part hmem).2, (h part hmem htruthy).2⟩

end Container

/-! ## Components -/

namespace Component

theorem compile_outcome_of_wellFormed {c : Component} (h : c.WellFormed) (settings : Settings) :
    (c.compile settings).outcome = .ok (c.sheet settings (c.rules settings)) := by
  have hfaults : Finding.faults c.findings = [] := by
    rw [findings, Finding.faults_flatMap, List.flatMap_eq_nil_iff]
    rintro ⟨key, style⟩ hmem
    obtain ⟨members, rfl, hmembers⟩ : ∃ members : Members, style = .object members ∧ _ := h _ hmem
    show Finding.faults ((Block.ofMembers members).findings [key]) = []
    rw [Block.faults_findings, List.flatMap_eq_nil_iff]
    rintro ⟨address, node⟩ hnode
    have hfine : node.malformations = [] := Members.everywhere_iff_nodes.mp hmembers _ hnode
    simp only [hfine, List.map_nil]
  simp only [compile, Report.ofFindings, Finding.firstFault?_eq_head?, hfaults, List.head?_nil,
    Report.andNote]

theorem styleRules_eq (className : String) (style : Value) :
    styleRules className style =
      style.members?.toList.flatMap fun members =>
        (Block.ofMembers members).rules ("." ++ className) := by
  cases style <;> simp [styleRules, Value.members?]

theorem containerRules_eq (c : Component) (settings : Settings) :
    c.containerRules settings = c.container.toList.flatMap fun container =>
      Rule.ofDeclarations ("." ++ settings.containerSelector) container.declarations := by
  rw [containerRules]
  cases c.container <;> simp

theorem rules_eq (c : Component) (settings : Settings) :
    c.rules settings =
      (c.container.toList.flatMap fun container =>
          Rule.ofDeclarations ("." ++ settings.containerSelector) container.declarations)
        ++ c.styles.zipIdx.flatMap fun ((key, style), i) =>
          styleRules (Name.ofStyle key i) style := by
  rw [rules, containerRules_eq, classed, List.flatMap_map]

theorem flatten_rules {c : Component} (h : c.WellFormed) (settings : Settings) :
    Css.flatten [] ((c.rules settings).map Rule.item) = c.flattening settings := by
  rw [rules_eq, List.map_append, Css.flatten_append, flattening, List.map_flatMap,
    List.map_flatMap, Css.flatten_flatMap, Css.flatten_flatMap]
  congr 1
  · exact List.flatMap_congr fun container _ => container.flatten_ofDeclarations _
  · refine List.flatMap_congr ?_
    rintro ⟨⟨key, style⟩, i⟩ hmem
    obtain ⟨members, rfl, hmembers⟩ : ∃ members : Members, style = .object members ∧ _ :=
      h _ (List.fst_mem_of_mem_zipIdx hmem)
    have := Block.flatten_rules hmembers [] ("." ++ Name.ofStyle key i)
    simpa [styleRules_eq, Value.members?] using this

theorem clean_rules {c : Component} {settings : Settings} (h : c.WellFormed)
    (hplain : c.EmitsPlain settings) : ∀ r ∈ c.rules settings, r.Clean := by
  rw [rules_eq, List.forall_mem_append]
  constructor
  · intro r hr
    obtain ⟨container, hcontainer, hr⟩ := List.mem_flatMap.mp hr
    have hparts := hplain.container container (Option.mem_toList.mp hcontainer)
    exact container.clean_ofDeclarations hparts r hr
  · intro r hr
    obtain ⟨⟨⟨key, style⟩, i⟩, hmem, hr⟩ := List.mem_flatMap.mp hr
    obtain ⟨members, rfl, hmembers⟩ : ∃ members : Members, style = .object members ∧ _ :=
      h _ (List.fst_mem_of_mem_zipIdx hmem)
    have hstart := (hplain.styles key members i hmem).prefixed (show Plain "." by decide)
    exact Block.clean_rules hmembers (by simp) hstart r hr

/-- **The sheet of a component says what its style trees say.** Read by its braces alone, the
sheet is empty, and then nothing is to be said, or it is the one block of the component's layer,
and the style rules in it are those of the flattening: all of them, in this order, and no others. -/
theorem read_compile {c : Component} {settings : Settings} (h : c.WellFormed)
    (hseparator : Text.isBlankText settings.ruleSeparator = true)
    (hplain : c.EmitsPlain settings) :
    ∃ compiled, (c.compile settings).outcome = .ok compiled
      ∧ ((compiled.css = "" ∧ c.flattening settings = [])
        ∨ ∃ items, Css.read compiled.css = some [.block ("@layer " ++ c.layer.name) items]
          ∧ c.flattening settings ≠ [] ∧ Css.flatten [] items = c.flattening settings) := by
  refine ⟨_, compile_outcome_of_wellFormed h settings, ?_⟩
  rw [← flatten_rules h]
  by_cases hne : c.rules settings = []
  · left
    rw [sheet, hne]
    exact ⟨rfl, rfl⟩
  · right
    have hclean := clean_rules h hplain
    refine ⟨_, c.layer.read_wrap hseparator hclean hne, fun hnil => ?_, rfl⟩
    obtain ⟨r, hr⟩ := List.exists_mem_of_ne_nil _ hne
    rw [Css.flatten_eq_flatMap, List.flatMap_eq_nil_iff] at hnil
    exact (hclean r hr).flatten_ne_nil [] (hnil _ (List.mem_map_of_mem hr))

/-- A card in a container, with a nested selector and a condition inside it. -/
def card : Component where
  styles := [("card", .object
    [("padding", .int 8),
     ("&:hover", .object
       [("color", .str "red"),
        ("@media", .object [("mobile", .object [("display", .str "grid")])])])])]
  container := some ⟨.str "card", .str "inline-size"⟩

theorem read_compile_card :
    card.WellFormed ∧ Text.isBlankText ({} : Settings).ruleSeparator = true ∧ card.EmitsPlain {}
      ∧ ∃ compiled, (card.compile {}).outcome = .ok compiled
        ∧ ∃ items, Css.read compiled.css = some [.block "@layer components" items]
          ∧ Css.flatten [] items = card.flattening {} := by
  have hwellFormed : card.WellFormed := by
    refine List.forall_mem_singleton.mpr ⟨_, rfl, ?_⟩
    exact Style.wellFormed_of_compile_outcome
      (show (Style.compile "card" _).outcome = .ok _ from rfl)
  have hseparator : Text.isBlankText ({} : Settings).ruleSeparator = true := by decide
  have hplain : card.EmitsPlain {} := by
    constructor
    · intro container hcontainer
      obtain rfl := Option.some.inj hcontainer
      decide
    · intro key members i hmem
      obtain ⟨⟨rfl, rfl⟩, rfl⟩ : (key = "card" ∧ _ = members) ∧ 0 = i := by
        simpa [card, eq_comm] using hmem
      have hname : Plain (Name.ofStyle "card" 0) := by decide +kernel
      refine .of_children hname (by decide +kernel)
        (List.forall_mem_singleton.mpr ⟨by decide, ?_⟩)
      refine .of_children hname (by decide +kernel)
        (List.forall_mem_singleton.mpr ⟨by decide, ?_⟩)
      exact .of_children hname (by decide +kernel) (List.forall_mem_nil _)
  obtain ⟨compiled, hcompiled, ⟨hempty, -⟩ | ⟨items, hread, -, hitems⟩⟩ :=
    read_compile hwellFormed hseparator hplain
  · have hsheet := compile_outcome_of_wellFormed hwellFormed {}
    rw [hcompiled] at hsheet
    obtain rfl := Except.ok.inj hsheet
    exact absurd hempty (by decide +kernel)
  · exact ⟨hwellFormed, hseparator, hplain, compiled, hcompiled, items, hread, hitems⟩

end Component

end Cascade
