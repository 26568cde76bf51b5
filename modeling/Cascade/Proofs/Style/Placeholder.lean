import Cascade.Proofs.Sheet.Flattening
import Cascade.Proofs.Style.Variants

/-!
# The class name as a placeholder

A style object is compiled for a class name, and that name may be any text: it may hold an `&`,
blanks or pieces of the style object itself. Whatever it is, it is written down as it is and never
looked at. To say so, the style object is compiled for a single character that stands nowhere in
what else is written, and then the character is replaced (`ruleTexts_of_placeholder`). How often
it stands there is known as well: once for each node that has properties.

Both facts are inductions over the tree. They are stated for any selector, as the selector grows
on the way down; what it grows by does not hold the character.
-/

namespace Cascade

/-! ## Replacing a character -/

namespace Text

/-- The text with another one in the place of each occurrence of a character. -/
def replaceAll (c : Char) (replacement text : String) : String :=
  String.ofList (text.toList.flatMap fun d => if d = c then replacement.toList else [d])

/-- How often a character stands in texts. -/
def occurrences (c : Char) (texts : List String) : Nat :=
  (texts.flatMap String.toList).count c

variable {c : Char} {replacement : String}

theorem toList_replaceAll (text : String) :
    (replaceAll c replacement text).toList =
      text.toList.flatMap fun d => if d = c then replacement.toList else [d] :=
  String.toList_ofList

theorem replaceAll_append (a b : String) :
    replaceAll c replacement (a ++ b) =
      replaceAll c replacement a ++ replaceAll c replacement b := by
  rw [← String.toList_inj, String.toList_append]
  simp only [toList_replaceAll, String.toList_append, List.flatMap_append]

theorem replaceAll_of_not_mem {text : String} (h : c ∉ text.toList) :
    replaceAll c replacement text = text := by
  have hsame : ∀ d ∈ text.toList, (if d = c then replacement.toList else [d]) = [d] :=
    fun d hd => if_neg (ne_of_mem_of_not_mem hd h)
  rw [← String.toList_inj, toList_replaceAll, List.flatMap_congr hsame]
  exact List.flatMap_singleton' _

theorem replaceAll_singleton : replaceAll c replacement (String.singleton c) = replacement := by
  rw [← String.toList_inj, toList_replaceAll]
  simp

theorem replaceAll_intercalate {separator : String} (h : c ∉ separator.toList)
    (texts : List String) :
    replaceAll c replacement (separator.intercalate texts) =
      separator.intercalate (texts.map (replaceAll c replacement)) := by
  induction texts with
  | nil => rfl
  | cons first rest ih =>
    cases rest with
    | nil => simp
    | cons next rest =>
      rw [String.intercalate_cons_cons, replaceAll_append, replaceAll_append, ih,
        replaceAll_of_not_mem h]
      simp

theorem occurrences_singleton (c : Char) (text : String) :
    occurrences c [text] = text.toList.count c := by
  rw [occurrences, List.flatMap_singleton]

theorem occurrences_append (c : Char) (a b : List String) :
    occurrences c (a ++ b) = occurrences c a + occurrences c b := by
  rw [occurrences, List.flatMap_append, List.count_append, occurrences, occurrences]

theorem count_intercalate {separator : String} (h : c ∉ separator.toList) (texts : List String) :
    (separator.intercalate texts).toList.count c = occurrences c texts := by
  induction texts with
  | nil => rfl
  | cons first rest ih =>
    cases rest with
    | nil => rw [String.intercalate_singleton, occurrences_singleton]
    | cons next rest =>
      rw [String.intercalate_cons_cons, String.toList_append, String.toList_append,
        List.count_append, List.count_append, ih, List.count_eq_zero.mpr h, Nat.add_zero,
        ← occurrences_singleton, ← occurrences_append, List.singleton_append]

end Text

/-! ## What is written besides the class name -/

/-- The texts that are written between the parts of rules, and the queries that have names. -/
def Rule.fixedTexts : List String :=
  [".", " \x7b ", " \x7d", ": ", ";", " ", "(min-width: ", ")"]
    ++ AtRule.all.map AtRule.keyword ++ Query.breakpoints.map Prod.snd

namespace Members

/-- The character stands nowhere in what is written of the tree: in no key or condition that leads
to a node, and in no name or value of a declaration. -/
structure Avoids (style : Members) (m : Char) : Prop where
  keys : ∀ path node, Reaches style path node → ∀ branch ∈ path, m ∉ branch.text.toList
  names : ∀ path node, Reaches style path node →
    ∀ entry ∈ node.properties, m ∉ (Name.kebab entry.1).toList
  values : ∀ path node, Reaches style path node →
    ∀ entry ∈ node.properties, m ∉ (entry.2.declared entry.1).toList

/-- How many nodes of the tree have a property that is not null. -/
def declaringNodes (style : Members) : Nat :=
  style.nodes.countP fun (_, node) => ! node.properties.isEmpty

variable {style inner : Members} {m : Char} {found : Branch}

theorem Avoids.branch (h : style.Avoids m) (hchild : (found, inner) ∈ style.children) :
    m ∉ found.text.toList :=
  h.keys [found] inner (.child hchild (.here inner)) found List.mem_cons_self

theorem Avoids.child (h : style.Avoids m) (hchild : (found, inner) ∈ style.children) :
    inner.Avoids m where
  keys _ node hreach other hother :=
    h.keys _ node (.child hchild hreach) other (List.mem_cons_of_mem _ hother)
  names _ node hreach := h.names _ node (.child hchild hreach)
  values _ node hreach := h.values _ node (.child hchild hreach)

theorem Avoids.of_children
    (hnames : ∀ entry ∈ style.properties, m ∉ (Name.kebab entry.1).toList)
    (hvalues : ∀ entry ∈ style.properties, m ∉ (entry.2.declared entry.1).toList)
    (hchildren : ∀ child ∈ style.children, m ∉ child.1.text.toList ∧ child.2.Avoids m) :
    style.Avoids m where
  keys path node hreach := by
    rcases reaches_iff.mp hreach with ⟨rfl, -⟩ | ⟨branch, inner, rest, rfl, hchild, hrest⟩
    · exact nofun
    · obtain ⟨hbranch, hinner⟩ := hchildren _ hchild
      exact List.forall_mem_cons.mpr ⟨hbranch, hinner.keys rest node hrest⟩
  names path node hreach := by
    rcases reaches_iff.mp hreach with ⟨-, rfl⟩ | ⟨branch, inner, rest, -, hchild, hrest⟩
    · exact hnames
    · exact (hchildren _ hchild).2.names rest node hrest
  values path node hreach := by
    rcases reaches_iff.mp hreach with ⟨-, rfl⟩ | ⟨branch, inner, rest, -, hchild, hrest⟩
    · exact hvalues
    · exact (hchildren _ hchild).2.values rest node hrest

theorem declaringNodes_eq (style : Members) :
    style.declaringNodes =
      (if style.properties.isEmpty then 0 else 1)
        + (style.children.flatMap fun child => child.2.nodes).countP
          fun (_, node) => ! node.properties.isEmpty := by
  rw [declaringNodes, nodes_eq, List.countP_cons, Nat.add_comm]
  congr 1
  · cases hempty : style.properties.isEmpty <;> simp [hempty]
  · rw [List.countP_flatMap, List.countP_flatMap]
    simp only [Function.comp_def, List.countP_map]

end Members

/-! ## The parts of a rule -/

namespace Rule

/-- What stands behind the selector of a rule. -/
def body (declarations : List Declaration) : String :=
  " \x7b " ++ declarationsText declarations ++ " \x7d"

theorem map_text_ofDeclarations (selector : String) (declarations : List Declaration) :
    (ofDeclarations selector declarations).map text =
      if declarations.isEmpty then [] else [selector ++ body declarations] := by
  cases declarations <;> simp [ofDeclarations, text, body, String.append_assoc]

end Rule

namespace Branch

/-- The texts of the inner object's rules as they stand among those of the outer one. -/
def encloseTexts (texts : List String) : Branch → List String
  | nested _ => texts
  | under rule condition =>
    if texts.isEmpty then []
    else
      [rule.keyword ++ " " ++ rule.query condition ++ " \x7b " ++ " ".intercalate texts
        ++ " \x7d"]

theorem map_text_enclose (branch : Branch) (rules : List Rule) :
    (branch.enclose rules).map Rule.text = branch.encloseTexts (rules.map Rule.text) := by
  cases branch <;> cases rules <;> simp [enclose, encloseTexts, Rule.ofGroup, Rule.text]

end Branch

section

variable {m : Char} (hfixed : ∀ text ∈ Rule.fixedTexts, m ∉ text.toList)
include hfixed

theorem Rule.not_mem_body {declarations : List Declaration}
    (h : ∀ d ∈ declarations, m ∉ d.name.toList ∧ m ∉ d.value.toList) :
    m ∉ (body declarations).toList := by
  have htexts : m ∉ (declarationsText declarations).toList := by
    rw [declarationsText, String.toList_intercalate]
    refine Text.not_mem_intercalate (hfixed " " (by decide)) ?_
    simp only [List.map_map, List.forall_mem_map, Function.comp_apply, Declaration.text,
      String.toList_append, List.mem_append, not_or]
    intro d hd
    exact ⟨⟨⟨(h d hd).1, hfixed ": " (by decide)⟩, (h d hd).2⟩, hfixed ";" (by decide)⟩
  simp only [body, String.toList_append, List.mem_append, not_or]
  exact ⟨⟨hfixed " \x7b " (by decide), htexts⟩, hfixed " \x7d" (by decide)⟩

theorem AtRule.not_mem_query (rule : AtRule) {condition : String} (h : m ∉ condition.toList) :
    m ∉ (rule.query condition).toList := by
  have hne : ∀ text : String, m ∉ text.toList → ∀ c ∈ text.toList, c ≠ m :=
    fun text htext c hc => ne_of_mem_of_not_mem hc htext
  have hqueries : ∀ entry ∈ Query.breakpoints, m ∉ entry.2.toList := fun entry hentry =>
    hfixed _ (List.mem_append_right _ (List.mem_map_of_mem hentry))
  cases rule with
  | container => exact h
  | supports => exact h
  | media =>
    intro hm
    exact Query.forall_mem_resolve (fun entry hentry => hne _ (hqueries entry hentry))
      (hne _ (hfixed "(min-width: " (by decide))) (hne _ (hfixed ")" (by decide))) (hne _ h) m
      hm rfl

/-- The character stands nowhere in what encloses the rules under a condition. -/
theorem AtRule.not_mem_header (rule : AtRule) {condition : String} (h : m ∉ condition.toList) :
    m ∉ (rule.keyword ++ " " ++ rule.query condition ++ " \x7b ").toList := by
  have hkeyword : rule.keyword ∈ Rule.fixedTexts := by cases rule <;> decide
  simp only [String.toList_append, List.mem_append, not_or]
  exact ⟨⟨⟨hfixed _ hkeyword, hfixed " " (by decide)⟩, rule.not_mem_query hfixed h⟩,
    hfixed " \x7b " (by decide)⟩

namespace Branch

theorem map_replaceAll_encloseTexts {branch : Branch} (h : m ∉ branch.text.toList)
    (replacement : String) (texts : List String) :
    (branch.encloseTexts texts).map (Text.replaceAll m replacement) =
      branch.encloseTexts (texts.map (Text.replaceAll m replacement)) := by
  cases branch with
  | nested key => rfl
  | under rule condition =>
    cases texts with
    | nil => rfl
    | cons first rest =>
      have hcondition : m ∉ condition.toList := h
      simp only [encloseTexts, List.isEmpty_cons, List.map_cons, Bool.false_eq_true, if_false,
        List.map_nil, Text.replaceAll_append _ " \x7d",
        Text.replaceAll_append _ (" ".intercalate _),
        Text.replaceAll_of_not_mem (rule.not_mem_header hfixed hcondition),
        Text.replaceAll_of_not_mem (hfixed " \x7d" (by decide)),
        Text.replaceAll_intercalate (hfixed " " (by decide))]

theorem occurrences_encloseTexts {branch : Branch} (h : m ∉ branch.text.toList)
    (texts : List String) :
    Text.occurrences m (branch.encloseTexts texts) = Text.occurrences m texts := by
  cases branch with
  | nested key => rfl
  | under rule condition =>
    cases texts with
    | nil => rfl
    | cons first rest =>
      have hcondition : m ∉ condition.toList := h
      have hclose : m ∉ " \x7d".toList := hfixed _ (by decide)
      rw [encloseTexts, List.isEmpty_cons, if_neg Bool.false_ne_true, Text.occurrences_singleton,
        String.toList_append, String.toList_append,
        List.count_append, List.count_append, Text.count_intercalate (hfixed " " (by decide)),
        List.count_eq_zero.mpr (rule.not_mem_header hfixed hcondition),
        List.count_eq_zero.mpr hclose, Nat.zero_add, Nat.add_zero]

end Branch

end

/-! ## The rules of a tree -/

namespace Block

theorem map_text_rules {style : Members} (h : style.WellFormed) (selector : String) :
    ((ofMembers style).rules selector).map Rule.text =
      (Rule.ofDeclarations selector (style.properties.map Declaration.ofMember)).map Rule.text
        ++ style.children.flatMap fun child => child.1.encloseTexts
          (((ofMembers child.2).rules (child.1.selector selector)).map Rule.text) := by
  rw [rules_ofMembers_of_wellFormed h, List.map_append, List.map_flatMap]
  simp only [childRules, Branch.map_text_enclose]

variable {style : Members} {m : Char}

theorem not_mem_body (hfixed : ∀ text ∈ Rule.fixedTexts, m ∉ text.toList) (h : style.Avoids m) :
    m ∉ (Rule.body (style.properties.map Declaration.ofMember)).toList := by
  refine Rule.not_mem_body hfixed (List.forall_mem_map.mpr fun entry hentry => ?_)
  exact ⟨h.names [] style (.here style) entry hentry,
    h.values [] style (.here style) entry hentry⟩

/-- Replacing the character in the selector replaces it in the rules, and nowhere else. -/
theorem map_text_rules_replaceAll (hfixed : ∀ text ∈ Rule.fixedTexts, m ∉ text.toList)
    (hwellFormed : style.WellFormed) (h : style.Avoids m) (replacement selector : String) :
    ((ofMembers style).rules (Text.replaceAll m replacement selector)).map Rule.text =
      (((ofMembers style).rules selector).map Rule.text).map (Text.replaceAll m replacement) := by
  induction style using Members.treeInduction generalizing selector with
  | step style ih =>
    obtain ⟨-, hchildren⟩ := Members.everywhere_iff.mp hwellFormed
    rw [map_text_rules hwellFormed, map_text_rules hwellFormed, List.map_append, List.map_flatMap]
    congr 1
    · rw [Rule.map_text_ofDeclarations, Rule.map_text_ofDeclarations]
      split
      · rfl
      · rw [List.map_singleton, Text.replaceAll_append,
          Text.replaceAll_of_not_mem (not_mem_body hfixed h)]
    · refine List.flatMap_congr fun child hchild => ?_
      obtain ⟨branch, inner⟩ := child
      have hbranch := h.branch hchild
      have hselector : branch.selector (Text.replaceAll m replacement selector) =
          Text.replaceAll m replacement (branch.selector selector) := by
        rw [Branch.selector_eq, Branch.selector_eq, Text.replaceAll_append,
          Text.replaceAll_of_not_mem fun hm => hbranch (Branch.mem_text_of_mem_suffix hm)]
      rw [hselector, ih _ hchild (hchildren _ hchild) (h.child hchild),
        Branch.map_replaceAll_encloseTexts hfixed hbranch]

/-- A selector in which the character stands once puts it once into the rule of each node. -/
theorem occurrences_map_text_rules (hfixed : ∀ text ∈ Rule.fixedTexts, m ∉ text.toList)
    (hwellFormed : style.WellFormed) (h : style.Avoids m) {selector : String}
    (hselector : selector.toList.count m = 1) :
    Text.occurrences m (((ofMembers style).rules selector).map Rule.text) =
      style.declaringNodes := by
  induction style using Members.treeInduction generalizing selector with
  | step style ih =>
    obtain ⟨-, hchildren⟩ := Members.everywhere_iff.mp hwellFormed
    rw [map_text_rules hwellFormed, Members.declaringNodes_eq, Text.occurrences_append]
    congr 1
    · rw [Rule.map_text_ofDeclarations, List.isEmpty_map]
      split
      · rfl
      · rw [Text.occurrences_singleton, String.toList_append, List.count_append, hselector,
          List.count_eq_zero.mpr (not_mem_body hfixed h)]
    · rw [Text.occurrences, List.flatMap_assoc, List.count_flatMap, List.countP_flatMap]
      refine congrArg List.sum (List.map_congr_left fun child hchild => ?_)
      obtain ⟨branch, inner⟩ := child
      have hbranch := h.branch hchild
      have hinner : (branch.selector selector).toList.count m = 1 := by
        rw [Branch.selector_eq, String.toList_append, List.count_append, hselector,
          List.count_eq_zero.mpr fun hm => hbranch (Branch.mem_text_of_mem_suffix hm)]
      show Text.occurrences m (branch.encloseTexts
        (((ofMembers inner).rules (branch.selector selector)).map Rule.text)) =
          inner.declaringNodes
      rw [Branch.occurrences_encloseTexts hfixed hbranch,
        ih _ hchild (hchildren _ hchild) (h.child hchild) hinner]

end Block

namespace Style

/-- **The class name is a placeholder.** Take a character that stands nowhere in what is written
of a well-formed style object, nor in the fixed texts of rules. The rules for any class name are
those for this character with the class name in the place of each of its occurrences, and it
occurs once for each node that has a property. -/
theorem ruleTexts_of_placeholder {style : Members} {m : Char} (hwellFormed : style.WellFormed)
    (hfixed : ∀ text ∈ Rule.fixedTexts, m ∉ text.toList) (h : style.Avoids m)
    (className : String) :
    ∃ texts, ruleTexts (String.singleton m) style = .ok texts
      ∧ ruleTexts className style = .ok (texts.map (Text.replaceAll m className))
      ∧ Text.occurrences m texts = style.declaringNodes := by
  have hdot : m ∉ ".".toList := hfixed _ (by decide)
  have hselector :
      Text.replaceAll m className ("." ++ String.singleton m) = "." ++ className := by
    rw [Text.replaceAll_append, Text.replaceAll_of_not_mem hdot, Text.replaceAll_singleton]
  have hcount : ("." ++ String.singleton m).toList.count m = 1 := by
    rw [String.toList_append, List.count_append, List.count_eq_zero.mpr hdot]
    simp
  refine ⟨_, ruleTexts_of_wellFormed hwellFormed _, ?_,
    Block.occurrences_map_text_rules hfixed hwellFormed h hcount⟩
  rw [ruleTexts_of_wellFormed hwellFormed, ← hselector,
    Block.map_text_rules_replaceAll hfixed hwellFormed h]

/-- A style object in which one node declares nothing and three do. -/
def chip : Members :=
  [("zIndex", .int 1),
   ("&:hover", .object
     [("color", .str "red"),
      ("@media", .object
        [("dark", .object [("color", .null)]), ("mobile", .object [("color", .str "gray")])])])]

/-- A class name with an `&`, with a text of the style object and with the character itself. -/
theorem ruleTexts_of_placeholder_chip :
    chip.WellFormed ∧ (∀ text ∈ Rule.fixedTexts, '#' ∉ text.toList) ∧ chip.Avoids '#'
      ∧ ruleTexts "a & red#" chip =
        .ok [".a & red# \x7b z-index: 1; \x7d", ".a & red#:hover \x7b color: red; \x7d",
          "@media (max-width: 640px) \x7b .a & red#:hover \x7b color: gray; \x7d \x7d"]
      ∧ chip.declaringNodes = 3 := by
  have hwellFormed : chip.WellFormed :=
    wellFormed_of_compile_outcome (show (compile "chip" chip).outcome = .ok _ from rfl)
  have hfixed : ∀ text ∈ Rule.fixedTexts, '#' ∉ text.toList := by decide
  have havoids : chip.Avoids '#' := by
    refine .of_children (by decide +kernel) (by decide +kernel)
      (List.forall_mem_singleton.mpr ⟨by decide, ?_⟩)
    refine .of_children (by decide +kernel) (by decide +kernel)
      (List.forall_mem_cons.mpr ⟨⟨by decide, ?_⟩, List.forall_mem_singleton.mpr ⟨by decide, ?_⟩⟩)
    · exact .of_children (by decide +kernel) (by decide +kernel) (List.forall_mem_nil _)
    · exact .of_children (by decide +kernel) (by decide +kernel) (List.forall_mem_nil _)
  obtain ⟨texts, htexts, hnamed, hcount⟩ :=
    ruleTexts_of_placeholder hwellFormed hfixed havoids "a & red#"
  obtain rfl := Except.ok.inj (htexts.symm.trans
    (show ruleTexts (String.singleton '#') chip = .ok _ from rfl))
  refine ⟨hwellFormed, hfixed, havoids, ?_, hcount.symm.trans (by decide +kernel)⟩
  rw [hnamed]
  exact congrArg Except.ok (by decide +kernel)

end Style

end Cascade
