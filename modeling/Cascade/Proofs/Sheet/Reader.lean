import Cascade.Text.Character
import Cascade.Text.Joined
import Mathlib.Data.Nat.Init

/-!
# A plain reader of style sheets

Reads a style sheet back by its braces, with no knowledge of where it came from. White space
between rules is skipped; a header goes up to the first ` {`, the body of a rule lies between the
one space behind that brace and the one space before the brace that closes it; a body with braces
in it holds rules, and one without holds declarations, each ended by `;` and split at its first
`: `.

The lemmas say what the reader does with the pieces of a text. `readItems_rule` puts them
together: a rule with a plain header and a balanced body is split from what follows it.
-/

namespace Cascade.Css

/-! ## The reader -/

/-- What a text of rules holds. -/
inductive Item where
  | style (selector : String) (declarations : List (String × String))
  | block (header : String) (items : List Item)

/-- Splits a text at the first occurrence of a mark. -/
def splitAt? (mark : List Char) : List Char → Option (List Char × List Char)
  | [] => none
  | c :: rest =>
    if mark.isPrefixOf (c :: rest) then some ([], (c :: rest).drop mark.length)
    else (splitAt? mark rest).map fun (before, after) => (c :: before, after)

/-- How many braces are open behind a character. -/
def depthAfter (depth : Nat) (c : Char) : Nat :=
  if c = '\x7b' then depth + 1 else if c = '\x7d' then depth - 1 else depth

/-- Splits a text at the brace that closes one opened before it; `depth` further braces are open. -/
def splitBody : Nat → List Char → Option (List Char × List Char)
  | _, [] => none
  | depth, c :: rest =>
    if c = '\x7d' ∧ depth = 0 then some ([], rest)
    else (splitBody (depthAfter depth c) rest).map fun (body, after) => (c :: body, after)

/-- Takes one space away at each end. -/
def unpad? : List Char → Option (List Char)
  | ' ' :: rest => if rest.getLast? = some ' ' then some rest.dropLast else none
  | _ => none

/-- The first rule of a text: its header, its body and what follows it. -/
def splitRule? (text : List Char) : Option (List Char × List Char × List Char) := do
  let (header, rest) ← splitAt? [' ', '\x7b'] text
  let (padded, after) ← splitBody 0 rest
  let body ← unpad? padded
  return (header, body, after)

theorem length_lt_of_splitAt? {mark text before after : List Char}
    (h : splitAt? mark text = some (before, after)) (hmark : mark ≠ []) :
    after.length < text.length := by
  induction text generalizing before with
  | nil => cases h
  | cons c rest ih =>
    rw [splitAt?] at h
    split at h
    · obtain ⟨-, rfl⟩ := Prod.mk.injEq .. |>.mp (Option.some.inj h)
      have := List.length_pos_iff.mpr hmark
      simp only [List.length_drop, List.length_cons]
      omega
    · obtain ⟨⟨b, a⟩, hsplit, heq⟩ := Option.map_eq_some_iff.mp h
      obtain ⟨-, rfl⟩ := Prod.mk.injEq .. |>.mp heq
      exact Nat.lt_succ_of_lt (ih hsplit)

theorem length_lt_of_splitBody {depth : Nat} {text body after : List Char}
    (h : splitBody depth text = some (body, after)) :
    body.length + after.length < text.length := by
  induction text generalizing depth body with
  | nil => cases h
  | cons c rest ih =>
    rw [splitBody] at h
    split at h
    · obtain ⟨rfl, rfl⟩ := Prod.mk.injEq .. |>.mp (Option.some.inj h)
      simp
    · obtain ⟨⟨b, a⟩, hsplit, heq⟩ := Option.map_eq_some_iff.mp h
      obtain ⟨rfl, rfl⟩ := Prod.mk.injEq .. |>.mp heq
      have := ih hsplit
      simp only [List.length_cons]
      omega

theorem length_le_of_unpad? {text body : List Char} (h : unpad? text = some body) :
    body.length ≤ text.length := by
  unfold unpad? at h
  split at h
  · split at h
    · obtain rfl := Option.some.inj h
      simp only [List.length_dropLast, List.length_cons]
      omega
    · cases h
  · cases h

theorem length_lt_of_splitRule? {text header body after : List Char}
    (h : splitRule? text = some (header, body, after)) :
    body.length < text.length ∧ after.length < text.length := by
  simp only [splitRule?, Option.bind_eq_bind, Option.bind_eq_some_iff, Prod.exists] at h
  obtain ⟨_, rest, hheader, padded, _, hbody, inner, hinner, heq⟩ := h
  obtain ⟨-, rfl, rfl⟩ : _ ∧ inner = body ∧ _ := by simpa using heq
  have h1 := length_lt_of_splitAt? hheader (by simp)
  have h2 := length_lt_of_splitBody hbody
  have h3 := length_le_of_unpad? hinner
  omega

/-- The declarations of a body. -/
def readDeclarations (text : List Char) : Option (List (String × String)) :=
  match h : splitAt? [';'] text with
  | none => if text = [] then some [] else none
  | some (declaration, after) =>
    (splitAt? [':', ' '] declaration).bind fun (name, value) =>
      match after with
      | [] => some [(String.ofList name, String.ofList value)]
      | ' ' :: rest =>
        have : rest.length < text.length := by
          have := length_lt_of_splitAt? h (by simp)
          simp only [List.length_cons] at this
          omega
        (readDeclarations rest).map ((String.ofList name, String.ofList value) :: ·)
      | _ => none
termination_by text.length

/-- The items of a text. -/
def readItems (text : List Char) : Option (List Item) :=
  if text.all Text.isBlank then some []
  else
    match h : splitRule? (text.dropWhile Text.isBlank) with
    | none => none
    | some (header, body, after) =>
      have := length_lt_of_splitRule? h
      have := (text.dropWhile_suffix Text.isBlank).length_le
      let item :=
        if '\x7b' ∈ body then (readItems body).map (Item.block (String.ofList header))
        else (readDeclarations body).map (Item.style (String.ofList header))
      item.bind fun item => (readItems after).map (item :: ·)
termination_by text.length

/-- Reads a style sheet. -/
def read (css : String) : Option (List Item) :=
  readItems css.toList

/-! ## Pieces of a text -/

theorem splitAt?_of_head_not_mem {c : Char} {text : List Char} (h : c ∉ text)
    (mark rest : List Char) :
    splitAt? (c :: mark) (text ++ (c :: mark ++ rest)) = some (text, rest) := by
  induction text with
  | nil =>
    rw [List.nil_append, List.cons_append, splitAt?, if_pos (by simp)]
    simp
  | cons x text ih =>
    obtain ⟨hx, htext⟩ := List.ne_and_not_mem_of_not_mem_cons h
    rw [List.cons_append, splitAt?, if_neg (by simp [hx]), ih htext]
    rfl

/-- A mark of two characters whose second one does not occur is not found any earlier: the first
one alone may well occur. -/
theorem splitAt?_of_second_not_mem {x c : Char} {text : List Char} (hne : x ≠ c) (h : c ∉ text)
    (rest : List Char) : splitAt? [x, c] (text ++ x :: c :: rest) = some (text, rest) := by
  induction text with
  | nil => simp [splitAt?]
  | cons y text ih =>
    obtain ⟨-, htext⟩ := List.ne_and_not_mem_of_not_mem_cons h
    have hnext : ¬ [x, c].isPrefixOf (y :: (text ++ x :: c :: rest)) = true := by
      cases text with
      | nil => simp [hne.symm]
      | cons z text =>
        have hz : c ≠ z := List.ne_of_not_mem_cons htext
        simp [hz]
    rw [List.cons_append, splitAt?, if_neg hnext, ih htext]
    rfl

/-- A text whose braces match among themselves: reading on behind it finds the same braces open. -/
def Balanced (text : List Char) : Prop :=
  ∀ depth rest, splitBody depth (text ++ rest) =
    (splitBody depth rest).map fun (body, after) => (text ++ body, after)

namespace Balanced

theorem of_no_braces {text : List Char} (hopen : '\x7b' ∉ text) (hclose : '\x7d' ∉ text) :
    Balanced text := by
  induction text with
  | nil =>
    intro depth rest
    simp
  | cons c text ih =>
    intro depth rest
    obtain ⟨hc, hopen⟩ := List.ne_and_not_mem_of_not_mem_cons hopen
    obtain ⟨hc', hclose⟩ := List.ne_and_not_mem_of_not_mem_cons hclose
    have hdepth : depthAfter depth c = depth := by
      rw [depthAfter, if_neg hc.symm, if_neg hc'.symm]
    rw [List.cons_append, splitBody, if_neg fun h => hc' h.1.symm, hdepth,
      ih hopen hclose depth rest, Option.map_map]
    rfl

theorem append {a b : List Char} (ha : Balanced a) (hb : Balanced b) : Balanced (a ++ b) := by
  intro depth rest
  rw [List.append_assoc, ha, hb, Option.map_map]
  simp [Function.comp_def]

theorem intercalate {separator : List Char} {texts : List (List Char)}
    (hseparator : Balanced separator) (htexts : ∀ text ∈ texts, Balanced text) :
    Balanced (separator.intercalate texts) := by
  induction texts with
  | nil => exact of_no_braces (List.not_mem_nil) (List.not_mem_nil)
  | cons text rest ih =>
    have htext := htexts text List.mem_cons_self
    have hrest := ih fun other hother => htexts other (List.mem_cons_of_mem _ hother)
    cases rest with
    | nil => rwa [List.intercalate_singleton]
    | cons next rest =>
      rw [List.intercalate_cons_cons, List.append_assoc]
      exact htext.append (hseparator.append hrest)

theorem braced {text : List Char} (h : Balanced text) :
    Balanced ('\x7b' :: (text ++ ['\x7d'])) := by
  intro depth rest
  have hopen : depthAfter depth '\x7b' = depth + 1 := rfl
  have hclose : depthAfter (depth + 1) '\x7d' = depth := rfl
  rw [List.cons_append, splitBody, if_neg (fun h => absurd h.1 (by decide)), hopen,
    List.append_assoc, h, List.singleton_append, splitBody, if_neg (by omega), hclose,
    Option.map_map, Option.map_map]
  simp [Function.comp_def]

/-- The brace behind a balanced text closes the one before it. -/
theorem splitBody_eq {text : List Char} (h : Balanced text) (after : List Char) :
    splitBody 0 (text ++ '\x7d' :: after) = some (text, after) := by
  rw [h, splitBody, if_pos ⟨rfl, rfl⟩]
  simp

end Balanced

theorem unpad?_pad (body : List Char) : unpad? (' ' :: (body ++ [' '])) = some body := by
  simp [unpad?]

/-! ## Rules -/

/-- How a rule is written: its header and its body, with one space on each side of a brace. -/
def ruleText (header body : List Char) : List Char :=
  header ++ ' ' :: '\x7b' :: ' ' :: (body ++ [' ', '\x7d'])

theorem Balanced.ruleText {header body : List Char} (hheader : Balanced header)
    (hbody : Balanced body) : Balanced (ruleText header body) := by
  have hspace : Balanced [' '] := of_no_braces (by decide) (by decide)
  have hpadded : Balanced (' ' :: (body ++ [' '])) := hspace.append (hbody.append hspace)
  have := hheader.append (hspace.append hpadded.braced)
  rw [Css.ruleText]
  simpa using this

theorem splitRule?_ruleText {header body : List Char} (hheader : '\x7b' ∉ header)
    (hbody : Balanced body) (after : List Char) :
    splitRule? (ruleText header body ++ after) = some (header, body, after) := by
  have hspace : Balanced [' '] := .of_no_braces (by decide) (by decide)
  have hpadded : Balanced (' ' :: (body ++ [' '])) := hspace.append (hbody.append hspace)
  have hsplit : splitAt? [' ', '\x7b'] (ruleText header body ++ after) =
      some (header, (' ' :: (body ++ [' '])) ++ '\x7d' :: after) := by
    have := splitAt?_of_second_not_mem (x := ' ') (by decide) hheader
      ((' ' :: (body ++ [' '])) ++ '\x7d' :: after)
    rw [← this, ruleText]
    simp
  simp only [splitRule?, hsplit, Option.bind_eq_bind, Option.bind_some, hpadded.splitBody_eq,
    unpad?_pad, Option.pure_def]

theorem readItems_of_splitRule? {text header body after : List Char}
    (hblank : text.all Text.isBlank = false)
    (h : splitRule? (text.dropWhile Text.isBlank) = some (header, body, after)) :
    readItems text =
      (if '\x7b' ∈ body then (readItems body).map (Item.block (String.ofList header))
        else (readDeclarations body).map (Item.style (String.ofList header))).bind
        fun item => (readItems after).map (item :: ·) := by
  rw [readItems, if_neg (by simp [hblank])]
  split
  · rename_i hnone
    rw [h] at hnone
    cases hnone
  · rename_i header' body' after' hsome
    obtain ⟨rfl, rfl, rfl⟩ : header' = header ∧ body' = body ∧ after' = after := by
      simpa using hsome.symm.trans h
    rfl

/-- A header that can be told from the white space before it and the brace behind it. -/
structure Heads (header : List Char) : Prop where
  visible : ∃ first tail, header = first :: tail ∧ Text.isBlank first = false
  no_open : '\x7b' ∉ header
  no_close : '\x7d' ∉ header

theorem Heads.balanced {header : List Char} (h : Heads header) : Balanced header :=
  .of_no_braces h.no_open h.no_close

/-- A rule is read off the front of a text, behind any white space. -/
theorem readItems_rule {blanks header body : List Char}
    (hblanks : ∀ c ∈ blanks, Text.isBlank c = true) (hheader : Heads header)
    (hbody : Balanced body) (after : List Char) :
    readItems (blanks ++ (ruleText header body ++ after)) =
      (if '\x7b' ∈ body then (readItems body).map (Item.block (String.ofList header))
        else (readDeclarations body).map (Item.style (String.ofList header))).bind
        fun item => (readItems after).map (item :: ·) := by
  obtain ⟨first, tail, hfirst, hvisible⟩ := hheader.visible
  have hdrop : (blanks ++ (ruleText header body ++ after)).dropWhile Text.isBlank =
      ruleText header body ++ after := by
    rw [List.dropWhile_append_of_pos hblanks, hfirst, ruleText, List.cons_append,
      List.cons_append, List.dropWhile_cons_of_neg (by simp [hvisible])]
  refine readItems_of_splitRule? ?_ ?_
  · rw [List.all_append, hfirst, ruleText]
    simp [hvisible]
  · rw [hdrop, splitRule?_ruleText hheader.no_open hbody]

/-! ## Declarations -/

/-- How a declaration is written. -/
def declarationText (declaration : String × String) : List Char :=
  declaration.1.toList ++ ':' :: ' ' :: (declaration.2.toList ++ [';'])

/-- A declaration that can be told from its surroundings. -/
def Separable (declaration : String × String) : Prop :=
  ':' ∉ declaration.1.toList ∧ ';' ∉ declaration.1.toList ∧ ';' ∉ declaration.2.toList

theorem readDeclarations_declarationText {declaration : String × String}
    (h : Separable declaration) (after : List Char) :
    readDeclarations (declarationText declaration ++ after) =
      match after with
      | [] => some [declaration]
      | ' ' :: rest => (readDeclarations rest).map (declaration :: ·)
      | _ => none := by
  obtain ⟨name, value⟩ := declaration
  obtain ⟨hcolon, hname, hvalue⟩ := h
  have hend : splitAt? [';'] (declarationText (name, value) ++ after) =
      some (name.toList ++ ':' :: ' ' :: value.toList, after) := by
    have hnot : ';' ∉ name.toList ++ ':' :: ' ' :: value.toList := by
      simp [hname, hvalue]
    rw [← splitAt?_of_head_not_mem hnot [] after, declarationText]
    simp
  have hcolon : splitAt? [':', ' '] (name.toList ++ ':' :: ' ' :: value.toList) =
      some (name.toList, value.toList) :=
    splitAt?_of_head_not_mem hcolon [' '] value.toList
  rw [readDeclarations]
  split
  · rename_i hnone
    cases hend.symm.trans hnone
  · rename_i declaration after' hsome
    obtain ⟨rfl, rfl⟩ :
        name.toList ++ ':' :: ' ' :: value.toList = declaration ∧ after = after' := by
      simpa using hend.symm.trans hsome
    rw [hcolon, Option.bind_some]
    simp only [String.ofList_toList]
    rcases after with _ | ⟨c, rest⟩
    · rfl
    · by_cases hc : c = ' '
      · subst hc
        rfl
      · simp [hc]

theorem readDeclarations_intercalate {declarations : List (String × String)}
    (h : ∀ d ∈ declarations, Separable d) :
    readDeclarations ([' '].intercalate (declarations.map declarationText)) =
      some declarations := by
  induction declarations with
  | nil => simp [readDeclarations, splitAt?]
  | cons d rest ih =>
    have hd := h d List.mem_cons_self
    have ih := ih fun other hother => h other (List.mem_cons_of_mem _ hother)
    cases rest with
    | nil =>
      rw [List.map_singleton, List.intercalate_singleton, ← List.append_nil (declarationText d),
        readDeclarations_declarationText hd]
    | cons next rest =>
      rw [List.map_cons] at ih
      rw [List.map_cons, List.map_cons, List.intercalate_cons_cons, List.append_assoc,
        readDeclarations_declarationText hd, List.singleton_append]
      show (readDeclarations _).map _ = _
      rw [ih]
      rfl

/-! ## What a text prints -/

/-- Wherever the text stands, the reader finds the item there and goes on behind it. -/
structure Prints (text : List Char) (item : Item) : Prop where
  balanced : Balanced text
  opens : '\x7b' ∈ text
  reads : ∀ blanks after, (∀ c ∈ blanks, Text.isBlank c = true) →
    readItems (blanks ++ (text ++ after)) = (readItems after).map (item :: ·)

theorem readItems_nil : readItems [] = some [] := by
  rw [readItems, if_pos (by simp)]

theorem Prints.readItems_eq {text : List Char} {item : Item} (h : Prints text item) :
    readItems text = some [item] := by
  have := h.reads [] [] (fun _ hc => nomatch hc)
  rwa [List.nil_append, List.append_nil, readItems_nil] at this

section Intercalate

variable {α : Type} {text : α → List Char} {item : α → Item} {separator : List Char}

theorem readItems_intercalate (hseparator : ∀ c ∈ separator, Text.isBlank c = true)
    {entries : List α} (h : ∀ x ∈ entries, Prints (text x) (item x)) {blanks : List Char}
    (hblanks : ∀ c ∈ blanks, Text.isBlank c = true) :
    readItems (blanks ++ separator.intercalate (entries.map text)) = some (entries.map item) := by
  -- The separator in front of the rest is the white space that the rest is read behind.
  induction entries generalizing blanks with
  | nil =>
    rw [readItems, if_pos]
    · rfl
    · simpa using hblanks
  | cons x rest ih =>
    have hx := h x List.mem_cons_self
    cases rest with
    | nil =>
      have := hx.reads blanks [] hblanks
      rw [List.append_nil, readItems_nil] at this
      rwa [List.map_singleton, List.intercalate_singleton]
    | cons y rest =>
      have ih := ih (fun z hz => h z (List.mem_cons_of_mem _ hz)) hseparator
      rw [List.map_cons] at ih
      rw [List.map_cons, List.map_cons, List.intercalate_cons_cons, List.append_assoc,
        hx.reads blanks _ hblanks, ih]
      rfl

/-- A block is printed by printing its items with white space between them. One item at least
there must be: the reader tells a block by a brace inside. -/
theorem Prints.block {header : String} (hheader : Heads header.toList)
    (hseparator : ∀ c ∈ separator, Text.isBlank c = true) {entries : List α}
    (h : ∀ x ∈ entries, Prints (text x) (item x)) (hne : entries ≠ []) :
    Prints (ruleText header.toList (separator.intercalate (entries.map text)))
      (.block header (entries.map item)) := by
  have hblank : Balanced separator := by
    refine .of_no_braces (fun hmem => ?_) (fun hmem => ?_)
    · exact absurd (hseparator _ hmem) (by decide)
    · exact absurd (hseparator _ hmem) (by decide)
  have hbody : Balanced (separator.intercalate (entries.map text)) := by
    refine hblank.intercalate fun part hpart => ?_
    obtain ⟨x, hx, rfl⟩ := List.mem_map.mp hpart
    exact (h x hx).balanced
  have hinner : '\x7b' ∈ separator.intercalate (entries.map text) := by
    obtain ⟨x, hx⟩ := List.exists_mem_of_ne_nil _ hne
    exact Text.mem_intercalate_of_mem (List.mem_map_of_mem hx) (h x hx).opens
  refine ⟨hheader.balanced.ruleText hbody, ?_, ?_⟩
  · simp [ruleText]
  · intro blanks after hblanks
    have hitems := readItems_intercalate hseparator h fun _ hc => List.not_mem_nil.elim hc
    rw [List.nil_append] at hitems
    rw [readItems_rule hblanks hheader hbody, if_pos hinner, hitems,
      String.ofList_toList]
    rfl

end Intercalate

/-- A style rule is printed by printing its declarations with single spaces between them. -/
theorem Prints.style {header : String} {declarations : List (String × String)}
    (hheader : Heads header.toList)
    (h : ∀ d ∈ declarations,
      Separable d ∧ '\x7b' ∉ declarationText d ∧ '\x7d' ∉ declarationText d) :
    Prints (ruleText header.toList ([' '].intercalate (declarations.map declarationText)))
      (.style header declarations) := by
  have hopen : '\x7b' ∉ [' '].intercalate (declarations.map declarationText) := by
    refine Text.not_mem_intercalate (by decide) fun text htext => ?_
    obtain ⟨d, hd, rfl⟩ := List.mem_map.mp htext
    exact (h d hd).2.1
  have hclose : '\x7d' ∉ [' '].intercalate (declarations.map declarationText) := by
    refine Text.not_mem_intercalate (by decide) fun text htext => ?_
    obtain ⟨d, hd, rfl⟩ := List.mem_map.mp htext
    exact (h d hd).2.2
  have hbody := Balanced.of_no_braces hopen hclose
  refine ⟨hheader.balanced.ruleText hbody, ?_, ?_⟩
  · simp [ruleText]
  · intro blanks after hblanks
    rw [readItems_rule hblanks hheader hbody, if_neg hopen,
      readDeclarations_intercalate fun d hd => (h d hd).1, String.ofList_toList]
    rfl

end Cascade.Css
