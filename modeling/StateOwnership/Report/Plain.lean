import StateOwnership.Report.Console

/-!
# Reports as plain text

An item on a terminal without styles: markup without its tags, and tables with aligned columns.
-/

namespace StateOwnership

namespace Markup

open Text (backslash)

/-- The text that markup shows. `slashes` backslashes stand before it; an odd one among them keeps
a tag from being one. Within a tag nothing is shown. -/
def shownFrom : (slashes : Nat) → (withinTag : Bool) → Text → Text
  | slashes, _, [] => List.replicate slashes backslash
  | _, true, c :: rest => shownFrom 0 (c != closeBracket) rest
  | slashes, false, c :: rest =>
    if c = backslash then shownFrom (slashes + 1) false rest
    else if startsTag (c :: rest) then
      List.replicate (slashes / 2) backslash ++
        if slashes % 2 = 1 then c :: shownFrom 0 false rest else shownFrom 0 true rest
    else List.replicate slashes backslash ++ c :: shownFrom 0 false rest

def shown (markup : Text) : Text :=
  shownFrom 0 false markup

end Markup

namespace Console

def cell (side : Side) (width : Nat) (t : Text) : Text :=
  let filling := Text.spaces (width - t.length)
  match side with
  | .left => t ++ filling
  | .right => filling ++ t

/-- The width of each of the first `count` columns. -/
def widths (count : Nat) (rows : List (List Text)) : List Nat :=
  (List.range count).map fun n => (rows.map fun row => (row.getD n []).length).foldl max 0

def gap : Text := "  "

def tableLines (columns : List Column) (rows : List (List Text)) : List Text :=
  let sizes := widths columns.length rows
  rows.map fun row =>
    Text.joinWith gap ((columns.zip (sizes.zip row)).map fun (column, width, t) =>
      cell column.side width t)

def Item.plainLines : Item → List Text
  | .line markup => [Markup.shown markup]
  | .panel text _ _ => [text]
  | .table title showHeader columns rows =>
    let header := if showHeader then [columns.map (·.header)] else []
    title.toList ++ tableLines columns (header ++ rows.map (·.map Markup.shown))

end Console
end StateOwnership
