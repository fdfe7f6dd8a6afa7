import Mathlib.Data.List.Basic

/-!
The alphabet of reference matching, and the output format as a structure of operations.
-/
namespace Citeproc

/-- Payload of an interned edge: formatted output, or one of the sentinels that
match regardless of their rendered text. -/
inductive EdgeData where
  | output (text : String)
  | yearSuffix
  | locator
  | locatorLabel
  | citationNumber
  | citationNumberLabel
  | frnn
  | frnnLabel
  | accessed
  deriving DecidableEq, Repr

/-- An interned edge: the 32-bit id the interner hands out for an `EdgeData`. -/
structure Edge where
  id : UInt32
  deriving DecidableEq, Repr

structure Affixes where
  prefixText : String
  suffixText : String
  deriving DecidableEq, Repr

inductive DisplayMode where
  | block
  | leftMargin
  | rightInline
  | indent
  deriving DecidableEq, Repr

inductive TextCase where
  | none
  | lowercase
  | uppercase
  | capitalizeFirst
  | capitalizeAll
  | sentence
  | title
  deriving DecidableEq, Repr

/-- Group variables of csl's `<group>`: whether the variables a subtree mentions
rendered. -/
inductive GroupVars where
  | plain
  | important
  | missing
  | unresolved
  | onlyEmpty
  | didRender
  deriving DecidableEq, Repr

/-- Modelled from the spec: "a seq renders iff the fold is not `Missing`". -/
def GroupVars.shouldRenderTree (gv : GroupVars) : Bool := gv != .missing

/-- The output format: its build and formatting types and the operations the core
calls. `stackPreorder` and `stackPostorder` stand for `stack_preorder` and
`stack_postorder` applied to `tag_stack`. -/
structure OutputFormat where
  Build : Type
  Formatting : Type
  Quotes : Type
  [decBuild : DecidableEq Build]
  [decFormatting : DecidableEq Formatting]
  [decQuotes : DecidableEq Quotes]
  group : List Build → String → Option Formatting → Build
  affixedQuoted : Build → Option Affixes → Option Quotes → Build
  withDisplay : Build → Option DisplayMode → Bool → Build
  applyTextCase : TextCase → Build → Build
  outputInContext : Build → Formatting → String
  stackPreorder : Formatting → Option DisplayMode → String
  stackPostorder : Formatting → Option DisplayMode → String
  plain : String → Build
  isEmpty : Build → Bool
  defaultFormatting : Formatting
  overrideWith : Formatting → Formatting → Formatting

attribute [instance] OutputFormat.decBuild OutputFormat.decFormatting OutputFormat.decQuotes

/-- Modelled from the spec: a plain-text output format. Builds are strings, `group`
joins with the delimiter, affixes and quote marks wrap the text, and formatting,
display and text-case add nothing. -/
def plainText : OutputFormat where
  Build := String
  Formatting := Unit
  Quotes := String × String
  group xs delimiter _ := delimiter.intercalate xs
  affixedQuoted b affixes quotes :=
    let b := match quotes with
      | some (opening, closing) => opening ++ b ++ closing
      | none => b
    match affixes with
    | some a => a.prefixText ++ b ++ a.suffixText
    | none => b
  withDisplay b _ _ := b
  applyTextCase _ b := b
  outputInContext b _ := b
  stackPreorder _ _ := ""
  stackPostorder _ _ := ""
  plain s := s
  isEmpty b := b.isEmpty
  defaultFormatting := ()
  overrideWith _ mine := mine

end Citeproc
