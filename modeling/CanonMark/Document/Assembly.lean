import CanonMark.Document.Event

/-! # Trees from events

The open nodes form a stack, innermost first, with the document at its bottom. An event changes
only the innermost open node, or opens or completes one. A node is reshaped when it is complete:
the inline runs of a list item become paragraphs, the cells of a table head become a row, and the
rows of a table become its body.
-/
namespace CanonMark

/-- Puts each maximal run of inline nodes into a paragraph and leaves the blocks as they are. The
run met so far is held in order. -/
def paragraphsFrom (run : List Node) : List Node → List Node
  | [] => if run.isEmpty then [] else [.branch .paragraph run]
  | n :: ns =>
    if n.kind.isInline then paragraphsFrom (run ++ [n]) ns
    else if run.isEmpty then n :: paragraphsFrom [] ns
    else .branch .paragraph run :: n :: paragraphsFrom [] ns

def wrapInlineRuns (ns : List Node) : List Node := paragraphsFrom [] ns

def Node.settle : Node → Node
  | .mk .item l cs => .mk .item l (wrapInlineRuns cs)
  | .mk .tableHead l cs =>
    if cs.all (·.kind == .tableCell) then .mk .tableHead l [.branch .tableRow cs]
    else .mk .tableHead l cs
  | .mk (.table alignments) l cs =>
    .mk (.table alignments) l
      (cs.filter (·.kind != .tableRow) ++ [.branch .tableBody (cs.filter (·.kind == .tableRow))])
  | n => n

abbrev OpenNodes := List Node

namespace OpenNodes

def initial : OpenNodes := [.branch .document []]

def add (child : Node) : OpenNodes → OpenNodes
  | [] => []
  | top :: rest => top.addChild child :: rest

/-- Text goes to the literal of a code block, to a text that stands last, or to a new text. -/
def addTextTo (t : Text) (top : Node) : Node :=
  if top.kind.isCodeBlock then top.addLiteral t
  else
    match top.children.getLast? with
    | some last =>
      if last.isText then .mk top.kind top.literal (top.children.dropLast ++ [last.addLiteral t])
      else top.addChild (.ofText t)
    | none => top.addChild (.ofText t)

def addText (t : Text) : OpenNodes → OpenNodes
  | [] => []
  | top :: rest => addTextTo t top :: rest

/-- Raw HTML belongs to the HTML block that is open, or else is a block of its own. -/
def addHtml (t : Text) : OpenNodes → OpenNodes
  | [] => []
  | top :: rest =>
    if top.kind == .htmlBlock then top.addLiteral t :: rest
    else top.addChild (.leaf .htmlBlock t) :: rest

/-- Completes the innermost node; the document itself stays open. -/
def close : OpenNodes → OpenNodes
  | top :: parent :: rest => parent.addChild top.settle :: rest
  | stack => stack

def step (stack : OpenNodes) : Event → OpenNodes
  | .start tag => .branch tag.kind [] :: stack
  | .finish => stack.close
  | .text t => stack.addText t
  | .softBreak => stack.addText ['\n']
  | .code t => stack.add (.leaf .code t)
  | .html t => stack.addHtml t
  | .inlineHtml t => stack.add (.leaf .htmlSpan t)
  | .hardBreak => stack.add (.branch .hardBreak [])
  | .rule => stack.add (.branch .thematicBreak [])
  | .extension name t => stack.add (.leaf (.extension name) t)

def run (events : List Event) (stack : OpenNodes) : OpenNodes := events.foldl step stack

def finishFrom (top : Node) : List Node → Node
  | [] => top
  | parent :: rest => finishFrom (parent.addChild top.settle) rest

def finish : OpenNodes → Node
  | [] => .branch .document []
  | top :: rest => finishFrom top rest

end OpenNodes

def Node.ofEvents (events : List Event) : Node := (OpenNodes.initial.run events).finish

end CanonMark
