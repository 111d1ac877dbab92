import NodeWeave.Catalog.Merge
import NodeWeave.FileTree

/-!
# Catalog files

A catalog file holds one catalog document as JSON.
-/

namespace NodeWeave.Catalog

/-- Merges the document in a text. -/
def mergeText (c : Catalog) (text : List Char) : Catalog × Option Fault :=
  match Json.parse text with
  | .error e => (c, some (.ofJson e))
  | .ok doc => c.merge doc

/-- Merges the document in a file. -/
def mergeFile (files : FileTree) (c : Catalog) (path : String) : Catalog × Option Fault :=
  match files.readText (Path.ofText path) with
  | .error e => (c, some e)
  | .ok text => c.mergeText text

end NodeWeave.Catalog
