import CanonMark.Layout.Flow
import CanonMark.Layout.Table

/-! # Blocks

Each block is laid out by itself and ends with a blank line. Paragraphs, quotes and lists are
filled; headings, code and tables are written line by line.
-/
namespace CanonMark.Layout

def headingText : List Node → Except LayoutError Text
  | [] => .ok []
  | n :: ns =>
    if n.isText then (n.literal ++ ·) <$> headingText ns else .error (.headingContent n.kind)

/-- A last word of hashes would be read as the end of the heading. -/
def shieldHashes (t : Text) : Text :=
  let word := (t.reverse.takeWhile (· != ' ')).reverse
  if !word.isEmpty && word.all (· == '#') then t.take (t.length - word.length) ++ '\\' :: word
  else t

def heading (level : Nat) (children : List Node) : Except LayoutError Text := do
  let text := shieldHashes (escape (trimFlatten (← headingText children)))
  let marks := List.replicate level '#'
  pure ((if text.isEmpty then marks else marks ++ ' ' :: text) ++ "\n\n".toList)

def codeBlock (fenced : Bool) (fenceLength : Nat) (info code : Text) : Text :=
  let fence := List.replicate (if fenced && fenceLength > 0 then fenceLength else 3) '\x60'
  fence ++ info ++ '\n' :: code ++ fence ++ "\n\n".toList

def paragraph (w : Flow) (children : List Node) : Except LayoutError (Text × Flow) := do
  let (filled, w) := w.writeAll (← inlineTokens children)
  let (stop, w) := w.terminate
  pure (filled ++ stop, w)

def quoteMargin : Margin := ⟨"> ".toList, "> ".toList⟩

mutual
def quoteChild (q : Flow) : Node → Except LayoutError (Text × Flow)
  | .mk .paragraph _ cs => paragraph q cs
  | .mk .quote _ [] => .ok ((q.nested quoteMargin).newline.1, q)
  | .mk .quote _ (c :: cs) => do
    let text ← quoteChildren (q.nested quoteMargin) true (c :: cs)
    pure (text, q)
  | n => .error (.quoteContent n.kind)

def quoteChildren (q : Flow) (first : Bool) : List Node → Except LayoutError Text
  | [] => .ok []
  | n :: ns => do
    let (gap, q) := if first then ([], q) else q.newline
    let (body, q) ← quoteChild q n
    let (stop, q) := q.terminate
    let more ← quoteChildren q false ns
    pure (gap ++ body ++ stop ++ more)
end

/-- The marker of the item with an index from zero. -/
def marker (ordered : Bool) (index : Nat) : Text :=
  if ordered then Text.ofNat (index + 1) ++ ". ".toList else "- ".toList

/-- The indentation of what belongs to an item: the width of its marker, and at least three. -/
def indentation (marker : Text) : Text := List.replicate (max marker.length 3) ' '

mutual
def listItem (w : Flow) (marker : Text) : Node → Except LayoutError Text
  | .mk .item _ (.mk .paragraph _ cs :: rest) => do
    let (text, _) ← paragraph (w.nested ⟨marker, indentation marker⟩) cs
    let nested ← itemRest (w.nested ⟨indentation marker, indentation marker⟩) rest
    pure (text ++ nested)
  | .mk .item _ [] => .error (.itemShape none)
  | .mk .item _ (n :: _) => .error (.itemShape (some n.kind))
  | n => .error (.listChild n.kind)

/-- What may follow the paragraph of an item: nothing, or one list. -/
def itemRest (w : Flow) : List Node → Except LayoutError Text
  | [] => .ok []
  | [.mk (.list ordered) _ items] => listItems w ordered 0 items
  | n :: _ => .error (.itemShape (some n.kind))

def listItems (w : Flow) (ordered : Bool) (index : Nat) : List Node → Except LayoutError Text
  | [] => .ok []
  | n :: ns => do
    let text ← listItem w (marker ordered index) n
    let more ← listItems w ordered (index + 1) ns
    pure (text ++ more)
end

def block (cols : Nat) (n : Node) : Except LayoutError Text :=
  let w := Flow.start cols ⟨[], []⟩
  match n with
  | .mk (.heading level) _ cs => heading level cs
  | .mk .paragraph _ cs => do
    let (text, w) ← paragraph w cs
    pure (text ++ w.newline.1)
  | .mk (.codeBlock fenced fenceLength info) code _ => .ok (codeBlock fenced fenceLength info code)
  | .mk .quote _ _ => do
    let (text, _) ← quoteChild w n
    pure (text ++ ['\n'])
  | .mk (.list ordered) _ items => do
    let text ← listItems w ordered 0 items
    pure (text ++ w.newline.1)
  | .mk (.table _) _ _ => table n
  | .mk k _ _ => .error (.unsupported k)

end CanonMark.Layout
