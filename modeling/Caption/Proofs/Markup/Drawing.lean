import Mathlib.Data.List.Nodup
import Caption.Markup.Outline
import Caption.Proofs.Markup.Traversal
import Caption.Proofs.Splitting

/-!
What the drawing of a file tells of its nodes. The stem of a line says for a node and for every node
above it whether it is the last of its siblings, and stems alone show how the nodes of a forest nest.
So the forest is read off the drawing, as long as no label breaks a line.
-/
namespace Caption

namespace Text

/-- Whether no text is empty and no two begin with the same character. -/
def Headed (tokens : List String) : Prop :=
  (none :: tokens.map fun token => token.toList.head?).Nodup

instance (tokens : List String) : Decidable (Headed tokens) :=
  inferInstanceAs (Decidable (List.Nodup _))

/-- A text that begins with one of such texts begins with no other, whatever comes behind it. -/
theorem Headed.append_inj {tokens : List String} (headed : Headed tokens) {first second : String}
    (known : first ∈ tokens) (listed : second ∈ tokens) {left right : String}
    (same : first ++ left = second ++ right) : first = second ∧ left = right := by
  obtain ⟨visible, apart⟩ := List.nodup_cons.mp headed
  have begins : ∀ token ∈ tokens, ∀ after : String,
      (token ++ after).toList.head? = token.toList.head? := by
    intro token member after
    rw [String.toList_append, List.head?_append_of_ne_nil]
    intro empty
    exact visible (List.mem_map.mpr ⟨token, member, by rw [empty, List.head?_nil]⟩)
  have heads : first.toList.head? = second.toList.head? := by
    rw [← begins first known left, same, begins second listed right]
  obtain rfl : first = second := List.inj_on_of_nodup_map apart known listed heads
  exact ⟨rfl, (String.append_right_inj first).mp same⟩

theorem isLine_repr (number : Nat) : IsLine (Nat.repr number) := by
  intro feed
  rw [Nat.repr, String.toList_ofList] at feed
  have digit := Nat.isDigit_of_mem_toDigits (by decide) (by decide) feed
  exact absurd digit (by decide)

end Text

namespace Outline

/-- What a line shows: for each node above whether it is the last of its siblings, the same for the
node itself, and its icon and label. -/
structure Row where
  above : List Bool
  last : Bool
  icon : String
  label : String

namespace Row

/-- What stands below a node and left of the nodes in it. -/
def block (last : Bool) : String := if last then "  " else "│ "

/-- What joins a node to the one above it. -/
def connector (last : Bool) : String := if last then "└─" else "├─"

def margin (above : List Bool) : String := String.join (above.map block)

/-- The part of a line in front of the node. -/
def stem (row : Row) : String := margin row.above ++ connector row.last

def mark (row : Row) : String × String := (row.icon, row.label)

def line (row : Row) : String := row.stem ++ " " ++ row.icon ++ " " ++ row.label

/-- A row without an icon and a label. -/
def bare (row : Row) : Row := { row with icon := "", label := "" }

@[simp] theorem margin_nil : margin [] = "" := rfl

theorem margin_cons (outer : Bool) (inner : List Bool) :
    margin (outer :: inner) = block outer ++ margin inner := by
  rw [margin, List.map_cons, String.join_cons, margin]

theorem margin_append (above : List Bool) (last : Bool) :
    margin (above ++ [last]) = margin above ++ block last := by
  induction above with
  | nil => simp [margin_cons]
  | cons outer inner ih => rw [List.cons_append, margin_cons, margin_cons, ih, String.append_assoc]

/-- What stems are made of. -/
def guides : List String := ["  ", "│ ", "└─", "├─"]

theorem headed_guides : Text.Headed guides := by decide

theorem block_mem_guides (last : Bool) : block last ∈ guides := by
  cases last <;> decide

theorem connector_mem_guides (last : Bool) : connector last ∈ guides := by
  cases last <;> decide

theorem block_ne_connector (outer last : Bool) : block outer ≠ connector last := by
  cases outer <;> cases last <;> decide

theorem block_injective : Function.Injective block := by
  unfold Function.Injective
  decide

theorem connector_injective : Function.Injective connector := by
  unfold Function.Injective
  decide

/-- A stem is read off a text together with its end: blocks go on until there is a connector. -/
theorem stem_append_inj {above above' : List Bool} {last last' : Bool} {after after' : String}
    (same :
      margin above ++ (connector last ++ after) = margin above' ++ (connector last' ++ after')) :
    above = above' ∧ last = last' ∧ after = after' := by
  induction above generalizing above' with
  | nil =>
    rw [margin_nil, String.empty_append] at same
    cases above' with
    | nil =>
      rw [margin_nil, String.empty_append] at same
      obtain ⟨joined, rest⟩ := headed_guides.append_inj (connector_mem_guides last)
        (connector_mem_guides last') same
      exact ⟨rfl, connector_injective joined, rest⟩
    | cons outer inner =>
      rw [margin_cons, String.append_assoc] at same
      have joined := (headed_guides.append_inj (connector_mem_guides last)
        (block_mem_guides outer) same).1
      exact absurd joined.symm (block_ne_connector outer last)
  | cons outer inner ih =>
    rw [margin_cons, String.append_assoc] at same
    cases above' with
    | nil =>
      rw [margin_nil, String.empty_append] at same
      have joined := (headed_guides.append_inj (block_mem_guides outer)
        (connector_mem_guides last') same).1
      exact absurd joined (block_ne_connector outer last')
    | cons outer' inner' =>
      rw [margin_cons, String.append_assoc] at same
      obtain ⟨joined, rest⟩ := headed_guides.append_inj (block_mem_guides outer)
        (block_mem_guides outer') same
      obtain ⟨rfl, ends⟩ := ih rest
      exact ⟨by rw [block_injective joined], ends⟩

/-- What two views have in common on single rows they have in common on lists of them. -/
theorem map_eq_of_forall {α β : Type} {view : Row → α} {other : Row → β} {left right : List Row}
    (each : ∀ first ∈ left, ∀ second ∈ right, view first = view second → other first = other second)
    (same : left.map view = right.map view) : left.map other = right.map other := by
  induction left generalizing right with
  | nil => rw [List.map_eq_nil_iff.mp same.symm]
  | cons first before ih =>
    cases right with
    | nil => cases same
    | cons second after =>
      obtain ⟨heads, rests⟩ := List.cons.inj same
      have tails : before.map other = after.map other := by
        apply ih _ rests
        intro row member row' member'
        exact each row (List.mem_cons_of_mem _ member) row' (List.mem_cons_of_mem _ member')
      rw [List.map_cons, List.map_cons, tails,
        each first List.mem_cons_self second List.mem_cons_self heads]

/-- A stem shows all of a row but its icon and its label. -/
theorem bare_eq_of_stem {left right : Row} (same : left.stem = right.stem) :
    left.bare = right.bare := by
  have ended : margin left.above ++ (connector left.last ++ "") =
      margin right.above ++ (connector right.last ++ "") := by
    rw [String.append_empty, String.append_empty]
    exact same
  obtain ⟨above, last, -⟩ := stem_append_inj ended
  rw [bare, bare, above, last]

/-- A line shows its row, if its icon is one of several that begin differently: the label may be any
text. -/
theorem line_inj {icons : List String} (headed : Text.Headed icons) {left right : Row}
    (known : left.icon ∈ icons) (listed : right.icon ∈ icons) (same : left.line = right.line) :
    left = right := by
  have parted : margin left.above ++
        (connector left.last ++ (" " ++ (left.icon ++ (" " ++ left.label)))) =
      margin right.above ++
        (connector right.last ++ (" " ++ (right.icon ++ (" " ++ right.label)))) := by
    simpa only [line, stem, String.append_assoc] using same
  obtain ⟨above, last, shown⟩ := stem_append_inj parted
  obtain ⟨icon, spaced⟩ := headed.append_inj known listed ((String.append_right_inj " ").mp shown)
  have label := (String.append_right_inj " ").mp spaced
  cases left
  cases right
  simp_all

theorem isLine_margin (above : List Bool) : Text.IsLine (margin above) := by
  induction above with
  | nil => decide
  | cons outer inner ih =>
    rw [margin_cons, Text.isLine_append]
    refine ⟨?_, ih⟩
    cases outer <;> decide

theorem isLine_stem (row : Row) : Text.IsLine row.stem := by
  rw [stem, Text.isLine_append]
  refine ⟨isLine_margin row.above, ?_⟩
  cases row.last <;> decide

theorem isLine_line {row : Row} (icon : Text.IsLine row.icon) (label : Text.IsLine row.label) :
    Text.IsLine row.line := by
  have space : Text.IsLine " " := by decide
  simp only [line, Text.isLine_append]
  exact ⟨⟨⟨⟨isLine_stem row, space⟩, icon⟩, space⟩, label⟩

end Row

mutual

/-- The rows of a node and of what is below it. -/
def rows (above : List Bool) (last : Bool) : Outline → List Row
  | .item icon label parts => ⟨above, last, icon, label⟩ :: rowsOfAll (above ++ [last]) parts

def rowsOfAll (above : List Bool) : List Outline → List Row
  | [] => []
  | head :: rest => rows above rest.isEmpty head ++ rowsOfAll above rest

end

mutual

theorem lines_eq (above : List Bool) (last : Bool) :
    (outline : Outline) →
      lines (Row.margin above) last outline = (rows above last outline).map Row.line
  | .item icon label parts => by
    have inner := linesOfAll_eq (above ++ [last]) parts
    rw [Row.margin_append] at inner
    rw [lines, rows, List.map_cons, ← inner]
    rfl

theorem linesOfAll_eq (above : List Bool) :
    (parts : List Outline) →
      linesOfAll (Row.margin above) parts = (rowsOfAll above parts).map Row.line
  | [] => rfl
  | head :: rest => by
    rw [linesOfAll, rowsOfAll, List.map_append, lines_eq above _ head, linesOfAll_eq above rest]

end

/-- Whether the first of several rows, if there is one, has fewer nodes above it than a number. -/
def Ends (depth : Nat) (after : List Row) : Prop := ∀ row ∈ after.head?, row.above.length < depth

theorem ends_rows_append {depth : Nat} {above : List Bool} (shallow : above.length < depth)
    (last : Bool) (outline : Outline) (after : List Row) :
    Ends depth (rows above last outline ++ after) := by
  cases outline with
  | item icon label parts =>
    intro row first
    obtain rfl := Option.mem_some_iff.mp first
    exact shallow

theorem ends_rowsOfAll_append {above : List Bool} {after : List Row}
    (ends : Ends above.length after) (parts : List Outline) :
    Ends (above.length + 1) (rowsOfAll above parts ++ after) := by
  cases parts with
  | nil =>
    intro row first
    exact Nat.lt_succ_of_lt (ends row first)
  | cons head rest =>
    rw [rowsOfAll, List.append_assoc]
    exact ends_rows_append (Nat.lt_succ_self _) _ head _

mutual

/-- A node is read off the rows from its own on, together with its end: what is below it goes on
until there is a row that is no deeper than its own. -/
theorem rows_append_inj : (left right : Outline) → {above : List Bool} → {last last' : Bool} →
    {after after' : List Row} → Ends (above.length + 1) after → Ends (above.length + 1) after' →
    rows above last left ++ after = rows above last' right ++ after' →
    left = right ∧ after = after'
  | .item icon label parts, .item icon' label' parts', above, last, last', after, after', ends,
      ends', same => by
    rw [rows, rows, List.cons_append, List.cons_append] at same
    obtain ⟨first, below⟩ := List.cons.inj same
    obtain ⟨-, rfl, rfl, rfl⟩ := Row.mk.inj first
    have depth : (above ++ [last]).length = above.length + 1 := List.length_append
    rw [← depth] at ends ends'
    obtain ⟨rfl, rfl⟩ := rowsOfAll_append_inj parts parts' ends ends' below
    exact ⟨rfl, rfl⟩

theorem rowsOfAll_append_inj : (left right : List Outline) → {above : List Bool} →
    {after after' : List Row} → Ends above.length after → Ends above.length after' →
    rowsOfAll above left ++ after = rowsOfAll above right ++ after' →
    left = right ∧ after = after'
  | [], [], _, _, _, _, _, same => ⟨rfl, same⟩
  | [], .item icon label parts :: rest, above, after, after', ends, _, same => by
    -- What is behind siblings is less deep than they are, so it does not begin with one of them.
    rw [rowsOfAll, rowsOfAll, rows, List.nil_append] at same
    rw [same] at ends
    exact absurd (ends _ rfl) (Nat.lt_irrefl _)
  | .item icon label parts :: rest, [], above, after, after', _, ends', same => by
    rw [rowsOfAll, rowsOfAll, rows, List.nil_append] at same
    rw [← same] at ends'
    exact absurd (ends' _ rfl) (Nat.lt_irrefl _)
  | head :: rest, head' :: rest', above, after, after', ends, ends', same => by
    rw [rowsOfAll, rowsOfAll, List.append_assoc, List.append_assoc] at same
    obtain ⟨rfl, later⟩ := rows_append_inj head head' (ends_rowsOfAll_append ends rest)
      (ends_rowsOfAll_append ends' rest') same
    obtain ⟨rfl, rfl⟩ := rowsOfAll_append_inj rest rest' ends ends' later
    exact ⟨rfl, rfl⟩

end

theorem rowsOfAll_injective (above : List Bool) : Function.Injective (rowsOfAll above) := by
  intro left right same
  have ends : Ends above.length [] := by
    intro row none
    cases none
  rw [← List.append_nil (rowsOfAll above left), ← List.append_nil (rowsOfAll above right)] at same
  exact (rowsOfAll_append_inj left right ends ends same).1

mutual

/-- The outline without icons and labels. -/
def bare : Outline → Outline
  | .item _ _ parts => .item "" "" (bareAll parts)

def bareAll : List Outline → List Outline
  | [] => []
  | head :: rest => head.bare :: bareAll rest

end

mutual

theorem rows_bare (above : List Bool) (last : Bool) :
    (outline : Outline) → rows above last outline.bare = (rows above last outline).map Row.bare
  | .item icon label parts => by
    rw [bare, rows, rows, List.map_cons, rowsOfAll_bareAll (above ++ [last]) parts]
    rfl

theorem rowsOfAll_bareAll (above : List Bool) :
    (parts : List Outline) →
      rowsOfAll above (bareAll parts) = (rowsOfAll above parts).map Row.bare
  | [] => rfl
  | head :: rest => by
    have empty : (bareAll rest).isEmpty = rest.isEmpty := by cases rest <;> rfl
    rw [bareAll, rowsOfAll, rowsOfAll, empty, List.map_append, rows_bare above _ head,
      rowsOfAll_bareAll above rest]

end

/-- The stems alone show how the nodes of a forest nest and follow one another. -/
theorem bareAll_eq_of_stems {above : List Bool} {left right : List Outline}
    (same : (rowsOfAll above left).map Row.stem = (rowsOfAll above right).map Row.stem) :
    bareAll left = bareAll right := by
  apply rowsOfAll_injective above
  rw [rowsOfAll_bareAll, rowsOfAll_bareAll]
  exact Row.map_eq_of_forall (fun _ _ _ _ => Row.bare_eq_of_stem) same

end Outline

namespace Node

def icons : List String := ["⇲", "⇢", "◇", "=", "\x7b \x7d", "⟨⟩", "\"", "𝑥", "∙"]

theorem headed_icons : Text.Headed icons := by decide

theorem icon_mem_icons (node : Node) : node.icon ∈ icons := by
  unfold icon
  cases node.kind <;> simp [icons]

theorem isLine_icon (node : Node) : Text.IsLine node.icon := by
  have each : ∀ icon ∈ icons, Text.IsLine icon := by decide
  exact each _ node.icon_mem_icons

def mark (node : Node) : String × String := (node.icon, shorten node.label)

theorem outline_eq (node : Node) :
    node.outline = .item node.icon (shorten node.label) (node.children.map outline) := by
  rw [outline, List.map_subtype (g := outline) (fun _ _ => rfl), List.unattach_attach]

theorem map_mark_rowsOfAll_of_forall {nodes : List Node}
    (each : ∀ node ∈ nodes, ∀ above last,
      (Outline.rows above last node.outline).map Outline.Row.mark = node.subtree.map mark)
    (above : List Bool) :
    (Outline.rowsOfAll above (nodes.map outline)).map Outline.Row.mark =
      (nodes.flatMap subtree).map mark := by
  induction nodes with
  | nil => rfl
  | cons head rest ih =>
    obtain ⟨first, others⟩ := List.forall_mem_cons.mp each
    rw [List.map_cons, Outline.rowsOfAll, List.map_append, first, ih others, List.flatMap_cons,
      List.map_append]

/-- There is a row for every node, in document order. -/
theorem map_mark_rows (node : Node) :
    ∀ above last,
      (Outline.rows above last node.outline).map Outline.Row.mark = node.subtree.map mark := by
  induction node using induction_children with
  | step node below =>
    intro above last
    rw [outline_eq, Outline.rows, subtree_eq, List.map_cons, List.map_cons,
      map_mark_rowsOfAll_of_forall below]
    rfl

end Node

namespace SourceFile

def heading (source : SourceFile) : String :=
  "⧉ Program (" ++ Nat.repr source.program.body.length ++ " statements)"

/-- The nodes of a file, each before the ones below it. -/
def nodes (source : SourceFile) : List Node := source.program.body.flatMap Node.subtree

/-- The rows of a drawing. -/
def rows (source : SourceFile) : List Outline.Row := Outline.rowsOfAll [] source.outlines

/-- Whether no label that is drawn has a line feed. -/
def LabelsAreLines (source : SourceFile) : Prop :=
  ∀ node ∈ source.nodes, Text.IsLine (Node.shorten node.label)

theorem isLine_heading (source : SourceFile) : Text.IsLine source.heading := by
  rw [heading, Text.isLine_append, Text.isLine_append]
  exact ⟨⟨by decide, Text.isLine_repr _⟩, by decide⟩

theorem draw_eq (source : SourceFile) :
    source.draw =
      String.join
        ((source.heading :: source.rows.map Outline.Row.line).map fun line => line ++ "\n") := by
  rw [rows, ← Outline.linesOfAll_eq]
  rfl

theorem map_mark_rows (source : SourceFile) :
    source.rows.map Outline.Row.mark = source.nodes.map Node.mark :=
  Node.map_mark_rowsOfAll_of_forall (fun node _ => node.map_mark_rows) []

/-- A row shows one of the nodes. -/
theorem exists_node_of_mem_rows {source : SourceFile} {row : Outline.Row}
    (member : row ∈ source.rows) :
    ∃ node ∈ source.nodes, node.icon = row.icon ∧ Node.shorten node.label = row.label := by
  have marked : row.mark ∈ source.nodes.map Node.mark := by
    rw [← map_mark_rows]
    exact List.mem_map_of_mem member
  obtain ⟨node, present, same⟩ := List.mem_map.mp marked
  obtain ⟨icon, label⟩ := Prod.mk.inj same
  exact ⟨node, present, icon, label⟩

theorem icon_mem_icons_of_mem_rows {source : SourceFile} {row : Outline.Row}
    (member : row ∈ source.rows) : row.icon ∈ Node.icons := by
  obtain ⟨node, _, icon, _⟩ := exists_node_of_mem_rows member
  rw [← icon]
  exact node.icon_mem_icons

section Plain

variable {left right : SourceFile}

/-- The parts of a drawing between its line feeds: the heading, the rows, and nothing behind the
last line feed. -/
theorem split_draw (plain : left.LabelsAreLines) :
    Text.split left.draw = left.heading :: left.rows.map Outline.Row.line ++ [""] := by
  have each : ∀ part ∈ left.heading :: left.rows.map Outline.Row.line, Text.IsLine part := by
    refine List.forall_mem_cons.mpr ⟨left.isLine_heading, ?_⟩
    intro part member
    obtain ⟨row, shown, rfl⟩ := List.mem_map.mp member
    obtain ⟨node, present, icon, label⟩ := exists_node_of_mem_rows shown
    apply Outline.Row.isLine_line
    · rw [← icon]
      exact node.isLine_icon
    · rw [← label]
      exact plain node present
  rw [draw_eq, Text.split_join, Text.flatMap_split_of_isLine each]

theorem rows_eq_of_lines (same : left.rows.map Outline.Row.line = right.rows.map Outline.Row.line) :
    left.rows = right.rows := by
  rw [← List.map_id left.rows, ← List.map_id right.rows]
  refine Outline.Row.map_eq_of_forall ?_ same
  intro row member row' member' shown
  exact Outline.Row.line_inj Node.headed_icons (icon_mem_icons_of_mem_rows member)
    (icon_mem_icons_of_mem_rows member') shown

/-- A drawing in which every label is a line tells the forest that it draws. -/
theorem draw_eq_iff (plain : left.LabelsAreLines) (plain' : right.LabelsAreLines) :
    left.draw = right.draw ↔ left.outlines = right.outlines := by
  constructor
  · intro same
    have parts := congrArg Text.split same
    rw [split_draw plain, split_draw plain'] at parts
    obtain ⟨-, shown⟩ := List.cons.inj (List.append_cancel_right parts)
    exact Outline.rowsOfAll_injective [] (rows_eq_of_lines shown)
  · intro same
    have lengths : left.program.body.length = right.program.body.length := by
      simpa [outlines] using congrArg List.length same
    rw [draw_eq, draw_eq, heading, heading, rows, rows, lengths, same]

end Plain

/-- A node with others in it and a label that looks like a line. -/
def posing (inside : List Node) : Node := .other "└─ ∙ A" [("parts", .list (inside.map Field.node))]

theorem nodesOfAll_map_node (nodes : List Node) :
    Field.nodesOfAll (nodes.map Field.node) = nodes := by
  induction nodes with
  | nil => rfl
  | cons head rest ih =>
    rw [List.map_cons, Field.nodesOfAll, ih, Field.nodes, List.singleton_append]

theorem children_posing (inside : List Node) : (posing inside).children = inside := by
  simp [posing, Node.children, Field.nodesOfFields, Field.nodes, nodesOfAll_map_node]

theorem subtree_posing (inside : List Node) :
    (posing inside).subtree = posing inside :: inside.flatMap Node.subtree := by
  rw [Node.subtree_eq, children_posing]

/-- Two nodes, and a third one in the first. -/
def early : SourceFile := ⟨⟨[posing [posing []], posing []], []⟩, none⟩

/-- Two nodes, and a third one in the second. -/
def late : SourceFile := ⟨⟨[posing [], posing [posing []]], []⟩, none⟩

end SourceFile

end Caption
