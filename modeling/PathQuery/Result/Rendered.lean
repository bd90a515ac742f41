/-
This file writes results in the formats in which they are shown.
-/

import PathQuery.Result.Report
import PathQuery.Yaml.Writer

namespace PathQuery

/-- The formats in which results are shown. -/
inductive OutputFormat where
  | yaml
  | json
  deriving DecidableEq

namespace OutputFormat

/-- The formats by their names. -/
def named : List (String × OutputFormat) := [("yaml", yaml), ("json", json)]

/-- Writes an outline in a format. -/
def document (outline : Outline) : OutputFormat → String
  | yaml => Yaml.document outline
  | json => outline.json.pretty ++ "\n"

end OutputFormat

/-- The verbosities by their names. -/
def Verbosity.named : List (String × Verbosity) := [("normal", normal), ("debug", debug)]

/-- A result written in a format. -/
def Result.rendered (result : Result) (verbosity : Verbosity) (format : OutputFormat) : String :=
  format.document (Report.outline (result.report verbosity))

end PathQuery
