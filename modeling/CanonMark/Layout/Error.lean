import CanonMark.Document.Node
import CanonMark.Text.Utf8

/-! # Why a document cannot be laid out -/
namespace CanonMark

inductive TableFault where
  | missingHead
  | missingBody
  | unexpectedChildren
  | firstNotHead
  | headRows
  | noColumns
  | noRows
  | sectionContent
  | rowContent
  deriving DecidableEq, Repr

def TableFault.message : TableFault → Text
  | .missingHead => "missing table head".toList
  | .missingBody => "missing table body".toList
  | .unexpectedChildren => "unexpected table children".toList
  | .firstNotHead => "first child must be a table head".toList
  | .headRows => "table head must hold exactly one row".toList
  | .noColumns => "table has no columns".toList
  | .noRows => "table has no body rows".toList
  | .sectionContent => "table sections may only contain rows".toList
  | .rowContent => "table rows may only contain cells".toList

inductive LayoutError where
  | headingContent (found : Kind)
  | quoteContent (found : Kind)
  | listChild (found : Kind)
  /-- The first child that an item may not have there, or that it has none. -/
  | itemShape (found : Option Kind)
  | malformedEmphasis
  | nestedLink
  | unsupported (kind : Kind)
  | invalidTable (fault : TableFault)
  | rowTooShort (row expected found : Nat)
  | rowTooLong (row expected found : Nat)
  | invalidUtf8 (fault : Utf8.Fault)
  deriving DecidableEq, Repr

inductive ErrorClass where
  | structural
  | unsupported
  | tableShape
  | input
  deriving DecidableEq, Repr

namespace LayoutError

def rowMessage (fault : String) (row expected found : Nat) : Text :=
  "table row ".toList ++ Text.ofNat row ++ " too ".toList ++ fault.toList ++
    ": expected ".toList ++ Text.ofNat expected ++ " cells, found ".toList ++ Text.ofNat found

def message : LayoutError → Text
  | headingContent found =>
    "headings may only contain text elements, found ".toList ++ found.name
  | quoteContent found =>
    "block quotes may only contain paragraphs or block quotes, found ".toList ++ found.name
  | listChild found => "all list children must be list items, found ".toList ++ found.name
  | itemShape found =>
    "list items must hold a paragraph optionally followed by a list, found ".toList ++
      (found.map Kind.name).getD "empty item".toList
  | malformedEmphasis => "invalid italic or bold formatting".toList
  | nestedLink => "links may not be nested inside links".toList
  | unsupported kind => "unsupported node kind: ".toList ++ kind.name
  | invalidTable fault => "invalid table structure: ".toList ++ fault.message
  | rowTooShort row expected found => rowMessage "short" row expected found
  | rowTooLong row expected found => rowMessage "long" row expected found
  | invalidUtf8 fault => "input is not valid UTF-8: ".toList ++ fault.message

def errorClass : LayoutError → ErrorClass
  | headingContent _ | quoteContent _ | listChild _ | itemShape _ | malformedEmphasis
  | nestedLink => .structural
  | unsupported _ => .unsupported
  | invalidTable _ | rowTooShort _ _ _ | rowTooLong _ _ _ => .tableShape
  | invalidUtf8 _ => .input

end LayoutError
end CanonMark
