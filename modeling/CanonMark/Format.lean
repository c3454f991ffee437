import CanonMark.Layout.Document
import CanonMark.Markdown.Reader

/-! # Formatting

A source is read and laid out again in the canonical form.
-/
namespace CanonMark

/-- The canonical form of a source. -/
def format (options : Layout.Options) (source : Text) : Except LayoutError Text :=
  Layout.document options (Markdown.parse source)

def formatDecoded (options : Layout.Options) (source : Bytes) : Except LayoutError Text :=
  match Utf8.decode source with
  | .ok t => format options t
  | .error fault => .error (.invalidUtf8 fault)

def formatBytes (options : Layout.Options) (source : Bytes) : Except LayoutError Bytes :=
  Utf8.encode <$> formatDecoded options source

end CanonMark
