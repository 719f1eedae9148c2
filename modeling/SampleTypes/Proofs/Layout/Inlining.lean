import SampleTypes.Proofs.Layout.Page

/-! Finished text on a page. The text of items is cut into lines again and each of them indented
to the level of the page, which gives the lines that the items put there themselves. Only a blank
line at the very end is lost in cutting. -/
namespace SampleTypes.Layout

open Text

namespace Indent

variable (indent : Indent)

lemma times_add (m n : Nat) : indent.times (m + n) = indent.times m ++ indent.times n := by
  rw [times, times, times, ← List.replicate_append_replicate, String.join_append]

/-- A line that was indented before goes to the level of both indentations. -/
lemma indented_indented (m n : Nat) (text : String) :
    indent.indented m (indent.indented n text) = indent.indented (m + n) text := by
  by_cases h : text = ""
  · subst h
    rfl
  · have hne : indent.times n ++ text ≠ "" := by simp [h]
    rw [indented_of_ne indent n h, indented_of_ne indent m hne, indented_of_ne indent (m + n) h,
      times_add, String.append_assoc]

lemma indented_eq_empty_iff (level : Nat) (text : String) :
    indent.indented level text = "" ↔ text = "" := by
  by_cases h : text = ""
  · simp [h, indented]
  · simp [h, indented_of_ne indent level h]

lemma oneLine_unit : OneLine indent.unit := by
  cases indent with
  | tab => decide
  | spaces width =>
    rw [unit]
    split_ifs <;> decide

lemma oneLine_times (level : Nat) : OneLine (indent.times level) := by
  induction level with
  | zero => exact List.forall_mem_nil _
  | succ level ih =>
    rw [times_add, oneLine_append]
    constructor
    · exact ih
    · simpa [times] using indent.oneLine_unit

lemma oneLine_indented (level : Nat) {text : String} (h : OneLine text) :
    OneLine (indent.indented level text) := by
  rw [indented]
  split
  · exact List.forall_mem_nil _
  · exact (oneLine_append _ _).mpr ⟨indent.oneLine_times level, h⟩

end Indent

namespace Item

mutual

/-- All texts that an item is made of. -/
def texts : Item → List String
  | line text => [text]
  | blank => []
  | block header close body => header :: (textsOf body ++ [close])

def textsOf : List Item → List String
  | [] => []
  | item :: items => item.texts ++ textsOf items

end

/-- What the last line of an item says. -/
def lastText : Item → String
  | line text => text
  | blank => ""
  | block _ close _ => close

/-- Whether the last line that items put on a page is blank. -/
def EndsBlank (items : List Item) : Prop := items.getLast?.map lastText = some ""

instance (items : List Item) : Decidable (EndsBlank items) :=
  inferInstanceAs (Decidable (items.getLast?.map lastText = some ""))

variable (indent : Indent)

mutual

/-- Lines that are moved as a whole are those of the items at the level that they are moved to. -/
lemma map_indented_flat (m n : Nat) : (item : Item) →
    (item.flat indent n).map (indent.indented m) = item.flat indent (m + n)
  | line text => by simp [flat, Indent.indented_indented]
  | blank => rfl
  | block header close body => by
    simp [flat, Indent.indented_indented, map_indented_flatAll m (n + 1) body, Nat.add_assoc]

lemma map_indented_flatAll (m n : Nat) : (items : List Item) →
    (flatAll indent n items).map (indent.indented m) = flatAll indent (m + n) items
  | [] => rfl
  | item :: items => by
    rw [flatAll, flatAll, List.map_append, map_indented_flat m n item,
      map_indented_flatAll m n items]

end

mutual

lemma oneLine_flat (level : Nat) : (item : Item) → (∀ s ∈ item.texts, OneLine s) →
    ∀ l ∈ item.flat indent level, OneLine l
  | line text, h => by
    have htext : OneLine text := h text List.mem_cons_self
    exact List.forall_mem_singleton.mpr (indent.oneLine_indented level htext)
  | blank, _ => List.forall_mem_singleton.mpr (List.forall_mem_nil _)
  | block header close body, h => by
    obtain ⟨hheader, hrest⟩ := List.forall_mem_cons.mp h
    obtain ⟨hbody, hclose⟩ := List.forall_mem_append.mp hrest
    have hclose : OneLine close := hclose close List.mem_cons_self
    refine List.forall_mem_cons.mpr ⟨indent.oneLine_indented level hheader, ?_⟩
    rw [List.forall_mem_append]
    constructor
    · exact oneLine_flatAll (level + 1) body hbody
    · exact List.forall_mem_singleton.mpr (indent.oneLine_indented level hclose)

/-- Items of texts on one line each put whole lines. -/
lemma oneLine_flatAll (level : Nat) : (items : List Item) → (∀ s ∈ textsOf items, OneLine s) →
    ∀ l ∈ flatAll indent level items, OneLine l
  | [], _ => List.forall_mem_nil _
  | item :: items, h => by
    obtain ⟨hitem, hitems⟩ := List.forall_mem_append.mp h
    rw [flatAll, List.forall_mem_append]
    constructor
    · exact oneLine_flat level item hitem
    · exact oneLine_flatAll level items hitems

end

/-- An item ends with its last line. -/
lemma exists_flat_eq_concat (level : Nat) (item : Item) :
    ∃ ls, item.flat indent level = ls ++ [indent.indented level item.lastText] := by
  cases item with
  | line text => exact ⟨[], rfl⟩
  | blank => exact ⟨[], rfl⟩
  | block header close body =>
    exact ⟨indent.indented level header :: flatAll indent (level + 1) body, rfl⟩

/-- The lines that items put on a page of their own, with the last of them apart. -/
lemma exists_flatAll_eq_concat {items : List Item} (hne : items ≠ []) :
    ∃ ls last, flatAll indent 0 items = ls ++ [last] ∧ (last = "" ↔ EndsBlank items) := by
  obtain ⟨init, item, rfl⟩ := (List.eq_nil_or_concat' items).resolve_left hne
  obtain ⟨ls, hls⟩ := exists_flat_eq_concat indent 0 item
  refine ⟨flatAll indent 0 init ++ ls, indent.indented 0 item.lastText, ?_, ?_⟩
  · rw [flatAll_append, flatAll, flatAll, hls]
    simp
  · rw [indent.indented_eq_empty_iff, EndsBlank]
    simp

/-- Cut into lines again, the text of items has all their lines but a blank one at the end. -/
lemma flatAll_eq_lines_render {items : List Item} (h : ∀ s ∈ textsOf items, OneLine s) :
    flatAll indent 0 items =
      Text.lines (render indent items) ++ if EndsBlank items then [""] else [] := by
  by_cases hne : items = []
  · subst hne
    rfl
  · obtain ⟨ls, last, hlines, hblank⟩ := exists_flatAll_eq_concat indent hne
    have hall := oneLine_flatAll indent 0 items h
    rw [hlines] at hall
    obtain ⟨hls, hlast⟩ := List.forall_mem_append.mp hall
    rw [render_eq, hlines, lines_intercalate_concat hls (hlast last List.mem_cons_self)]
    by_cases hempty : last = ""
    · simp [hempty, hblank.mp hempty]
    · simp [hempty, mt hblank.mpr hempty]

end Item

namespace Page

/-- What a pasted text of items lacks is at most a blank line. -/
lemma add_paste_render {items : List Item} (h : ∀ s ∈ Item.textsOf items, OneLine s) (p : Page) :
    (p.paste (Item.render p.indent items)).add (if Item.EndsBlank items then [""] else []) =
      p.putAll items := by
  have hblank : (if Item.EndsBlank items then [""] else []).map (p.indent.indented p.level) =
      if Item.EndsBlank items then [""] else [] := by
    split <;> rfl
  have hflat := Item.map_indented_flatAll p.indent p.level 0 items
  rw [Item.flatAll_eq_lines_render p.indent h, List.map_append, hblank, Nat.add_zero] at hflat
  rw [paste_eq, add_add, hflat, ← putAll_eq]

/-- Items leave the level of a page as it is. The finished text of items that do not end with a
blank line gives, on a page at any level, what the items themselves give there, and on a page of
its own it stays the text that it is. If they do end with one, exactly this line is missing. -/
theorem paste_render_eq_putAll (indent : Indent) (items : List Item) :
    (∀ p : Page, (p.putAll items).level = p.level) ∧
    ((∀ s ∈ Item.textsOf items, OneLine s) →
      (¬Item.EndsBlank items →
        (∀ p : Page, p.indent = indent → p.paste (Item.render indent items) = p.putAll items) ∧
          ({ indent : Page }.paste (Item.render indent items)).text = Item.render indent items) ∧
      (Item.EndsBlank items →
        ∀ p : Page, p.indent = indent →
          (p.paste (Item.render indent items)).blank = p.putAll items)) := by
  refine ⟨fun p => level_putAll p items, fun h => ⟨fun hends => ?_, fun hends => ?_⟩⟩
  · have hpaste : ∀ p : Page, p.indent = indent →
        p.paste (Item.render indent items) = p.putAll items := by
      rintro p rfl
      have hp := add_paste_render h p
      rwa [if_neg hends, add_nil] at hp
    refine ⟨hpaste, ?_⟩
    rw [hpaste { indent } rfl]
    rfl
  · rintro p rfl
    have hp := add_paste_render h p
    rwa [if_pos hends, ← blank_eq] at hp

/-- A block in a block, below a line at level three, and items that lose their blank line. -/
theorem paste_render_eq_putAll_nested :
    let inner : Item := .block "b [" "]" [.line "c", .blank, .line ""]
    let items : List Item := [.line "", .block "a [" "]" [inner]]
    let page : Page := { indent := .spaces 2, level := 3, lines := #["x"] }
    ((∀ s ∈ Item.textsOf items, OneLine s) ∧ ¬Item.EndsBlank items ∧ page.indent = .spaces 2) ∧
    ((∀ s ∈ Item.textsOf [.line "a", .blank], OneLine s) ∧ Item.EndsBlank [.line "a", .blank]) ∧
      page.paste (Item.render (.spaces 2) items) = page.putAll items ∧
      (page.paste (Item.render (.spaces 2) [.line "a", .blank])).blank =
        page.putAll [.line "a", .blank] := by
  intro inner items page
  have hplain : ∀ s ∈ Item.textsOf items, OneLine s := by decide
  have hends : ¬Item.EndsBlank items := by decide
  have hplain' : ∀ s ∈ Item.textsOf [.line "a", .blank], OneLine s := by decide
  have hends' : Item.EndsBlank [.line "a", .blank] := by decide
  refine ⟨⟨hplain, hends, rfl⟩, ⟨hplain', hends'⟩, ?_, ?_⟩
  · exact (((paste_render_eq_putAll (.spaces 2) items).2 hplain).1 hends).1 page rfl
  · exact ((paste_render_eq_putAll (.spaces 2) [.line "a", .blank]).2 hplain').2 hends' page rfl

end Page

end SampleTypes.Layout
