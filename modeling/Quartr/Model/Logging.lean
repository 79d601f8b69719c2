import Quartr.Model.Codec

/-! # Log lines

`JsonFormatter.format` makes one JSON document of a record; the handler writes each on a line of its own.
-/

namespace Quartr.Model

open Quartr.Data.Json (FloatText)
open Quartr.Model.Mapping (Json)
open Quartr.Numeric

/-- A record with the attributes that `extra` gave it; one that it has not is `None`. -/
structure LogRecord where
  levelname : String
  name : String
  message : String
  extra : String → Json
  exception : Option String

namespace JsonFormatter

/-- The attributes that are taken over into the document. -/
def context : List String :=
  ["task_id", "logical_report_path", "ticker", "cik", "form", "accession", "worker_id", "state"]

/-- The attribute under its name, unless it is `None`. -/
def attribute? (record : LogRecord) (key : String) : Option (String × Json) :=
  match record.extra key with
  | .null => none
  | value => some (key, value)

def payload (timestamp : Binary64) (record : LogRecord) : List (String × Json) :=
  [("timestamp", .float timestamp), ("level", .str record.levelname), ("logger", .str record.name),
      ("message", .str record.message)] ++
    context.filterMap (attribute? record) ++
    (record.exception.map fun text => ("exc_info", Json.str text)).toList

variable (float : FloatText Binary64)

def format (timestamp : Binary64) (record : LogRecord) : String :=
  Mapping.dumps float .compact (.obj (payload timestamp record))

/-- What `StreamHandler` writes for some records, each with the time it was formatted at. -/
def output (records : List (Binary64 × LogRecord)) : List Char :=
  records.flatMap fun record => (format float record.1 record.2).toList ++ ['\n']

end JsonFormatter

end Quartr.Model
