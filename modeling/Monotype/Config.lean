import Monotype.Path
import Monotype.Report

/-!
Configurations of a run, and how one is filled in by another.
-/

namespace Monotype

/-- How a run is done. Results go to outputs of type `ω`. -/
structure Config (ω : Type) where
  /-- The document with the syntax tree. -/
  file : Option Path := none
  /-- The program that the tree came from. -/
  sourceFile : Option Path := none
  /-- The encoding of both files. -/
  encoding : String := "utf-8"
  showTree : Bool := false
  showHelp : Bool := false
  showVersion : Bool := false
  format : Format := .long
  output : ω
deriving Repr, DecidableEq

structure Overrides (ω : Type) where
  file : Option Path := none
  sourceFile : Option Path := none
  encoding : Option String := none
  showTree : Bool := false
  showHelp : Bool := false
  showVersion : Bool := false
  /-- The format and the output are given together. -/
  writers : Option (Format × ω) := none
deriving Repr, DecidableEq

namespace Config

variable {ω : Type}

def toOverrides (c : Config ω) : Overrides ω where
  file := c.file
  sourceFile := c.sourceFile
  encoding := some c.encoding
  showTree := c.showTree
  showHelp := c.showHelp
  showVersion := c.showVersion
  writers := some (c.format, c.output)

/-- Fills in a configuration. Paths and flags that are set stay; the encoding, the format and the
output are taken over if they are given. -/
def merge (c : Config ω) (o : Overrides ω) : Config ω where
  file := c.file <|> o.file
  sourceFile := c.sourceFile <|> o.sourceFile
  encoding := o.encoding.getD c.encoding
  showTree := c.showTree || o.showTree
  showHelp := c.showHelp || o.showHelp
  showVersion := c.showVersion || o.showVersion
  format := (o.writers.map (·.1)).getD c.format
  output := (o.writers.map (·.2)).getD c.output

end Config

end Monotype
