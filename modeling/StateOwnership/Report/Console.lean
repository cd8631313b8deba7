import StateOwnership.Fetch.Basic
import StateOwnership.Index.Inventory
import StateOwnership.Report.Markup

/-!
# Reports on the console

What is printed is a list of items: lines of markup, panels and tables. How an item is laid out is
not decided here.
-/

namespace StateOwnership.Console

open Markup (escape styled styledBriefly)

/-- A style and the part of a text that it applies to. -/
structure Span where
  start : Nat
  stop : Nat
  style : Text
  deriving DecidableEq, Repr

inductive Side where
  | left
  | right
  deriving DecidableEq, Repr

def Side.name : Side → Text
  | .left => "left"
  | .right => "right"

structure Column where
  header : Text
  style : Text
  side : Side
  noWrap : Bool
  deriving DecidableEq, Repr

inductive Item where
  | line (markup : Text)
  | panel (text : Text) (borderStyle : Text) (spans : List Span)
  | table (title : Option Text) (showHeader : Bool) (columns : List Column)
    (rows : List (List Text))
  deriving DecidableEq, Repr

/-! ## 1. Panels -/

/-- Whether a code point would move the cursor or ring the bell. -/
def isCursorControl (c : CodePoint) : Bool :=
  c = 0x07 || c = 0x08 || c = 0x0B || c = 0x0C || c = 0x0D

/-- Styled parts one after the other: the text without cursor controls, and the place of each part
that has any. -/
def assemble (parts : List (Text × Text)) : Text × List Span :=
  parts.foldl (fun (text, spans) (style, part) =>
    if part = [] then (text, spans)
    else
      let shown := part.filter (!isCursorControl ·)
      (text ++ shown, spans ++ [⟨text.length, text.length + shown.length, style⟩])) ([], [])

/-- The most buckets that the header names one by one. -/
def headerLimit : Nat := 5

def bucketSummary (buckets : List Text) : Text :=
  if buckets.length ≤ headerLimit then Text.joinWith ", " buckets
  else Text.ofNat buckets.length ++ " backends"

def header (buckets : List Text) : Item :=
  let (text, spans) := assemble
    [("bold blue", "\nTerraform State Index\n"),
      ("dim", "Backends: " ++ bucketSummary buckets)]
  .panel text "blue" spans

/-! ## 2. Tables -/

def fetchRow (outcome : Fetch.Outcome) : List Text :=
  [escape outcome.bucket, Text.ofNat outcome.filenames.size, Text.ofNat outcome.downloaded.length,
    Text.ofNat outcome.skipped.length]

def pullTable (outcomes : List Fetch.Outcome) : Item :=
  .table (some "\nPulled Backends") true
    [⟨"Bucket", "cyan", .left, true⟩, ⟨"State Files", [], .right, false⟩,
      ⟨"Downloaded", "green", .right, false⟩, ⟨"Skipped", "dim", .right, false⟩]
    (outcomes.map fetchRow)

/-- The style of the number of files that were passed over. -/
def skippedStyle (count : Nat) : Text :=
  if count = 0 then Text.ofString "green" else Text.ofString "yellow"

/-- A row that shows one count. -/
def row (label value : Text) : List Text := [label, value]

/-- The row that counts takeovers, if there are any. -/
def collisionRows (collisions : Int) : List (List Text) :=
  if collisions = 0 then []
  else [row "Shared Resource IDs:" (styledBriefly "yellow" (Text.ofInt collisions))]

def summaryTable (inventory : Inventory) : Item :=
  let skipped := inventory.skippedCount
  .table none false [⟨"Metric", "cyan", .left, false⟩, ⟨"Value", "white", .left, false⟩]
    ([row "Managed Resources:" (Text.ofNat inventory.index.size),
      row "State Files Loaded:" (Text.ofNat inventory.filesLoaded.length),
      row "State Files Skipped:" (styledBriefly (skippedStyle skipped) (Text.ofNat skipped))] ++
      collisionRows inventory.collisions ++
      [row "Load Time:" (inventory.loadTime.readable ++ " UTC")])

def ownersTable (owners : OrderedMap Text Nat) : Item :=
  .table (some "\nResources by State File") true
    [⟨"State File", "cyan", .left, false⟩, ⟨"Resources", [], .right, false⟩]
    (owners.entries.map fun (owner, count) => [escape owner, Text.ofNat count])

def resourcesTable (index : Index) : Item :=
  .table (some "\nManaged Resources") true
    [⟨"Resource ID", "cyan", .left, true⟩, ⟨"State File", "dim", .left, false⟩]
    (index.entries.entries.map fun (id, owner) => [escape id, escape owner])

/-! ## 3. Reports -/

def skippedLine (path message : Text) : Item :=
  .line ("  " ++ styled "red" ("• " ++ escape path ++ ": " ++ escape message))

def skippedLines (skipped : OrderedMap Text Text) : List Item :=
  if skipped.isEmpty then []
  else
    .line ("\n" ++ styled "yellow bold" "Skipped state files:") ::
      skipped.entries.map fun (path, message) => skippedLine path message

/-- The report on an inventory, with its resources one by one if they are asked for. -/
def inventory (showResources : Bool) (inventory : Inventory) : List Item :=
  let owners := inventory.index.owners
  [.line "\n", summaryTable inventory] ++
    (if owners.isEmpty then [.line ("\n" ++ styled "yellow" "No managed resources found.")]
      else [ownersTable owners]) ++
    (if showResources && inventory.index.size ≠ 0 then [resourcesTable inventory.index] else []) ++
    skippedLines inventory.skipped

/-- The end of a report, with the file that the results are in. -/
def completion (outputFile : Option Text) : List Item :=
  let done := Item.line ("\n" ++ styled "green bold" "Done!")
  match outputFile with
  | none | some [] => [done]
  | some path => [done, .line (styled "dim" ("Results saved to: " ++ escape path))]

def errorLine (heading message : Text) : Item :=
  .line ("\n" ++ styled "red bold" heading ++ " " ++ escape message)

def error (message : Text) : Item :=
  errorLine "Error:" message

def describe (showResources : Bool) : Text :=
  let shown : Text := if showResources then Text.ofString "True" else Text.ofString "False"
  "CLIReporter(show_resources=" ++ shown ++ ")"

end StateOwnership.Console
