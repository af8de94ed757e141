import NoraFleet.Base.Flow
import NoraFleet.Base.Json
import NoraFleet.Base.Layers
import NoraFleet.Base.Urls

/-!
# Structure in the text of an answer

A dictionary that a model wrote into its text, between one of a few pairs of
delimiters, is told apart from the text around it. The formats to look for are a
setting of an agent.

How the text between the delimiters is read is for a library that repairs JSON to
say: that is a parameter.

* `parseStructure_nil` — nothing is found where no format is looked for.
-/

namespace NoraFleet.Messages

open Base
open Base.Json (Members)

/-- `json_repair.loads(text)`: the value that it reads, or what it raises. -/
abbrev RepairLoads := PyStr → Except PyError Json

/-- The text before the first place where the pattern stands, and the text after it. -/
def splitFirst (pattern : PyStr) : PyStr → Option (PyStr × PyStr)
  | [] => if pattern = [] then some ([], []) else none
  | c :: text =>
      if pattern.isPrefixOf (c :: text) then some ([], (c :: text).drop pattern.length)
      else (splitFirst pattern text).map fun parts => (c :: parts.1, parts.2)

/-- The text before the last place where the pattern stands, and the text after it. -/
def splitLast (pattern : PyStr) : PyStr → Option (PyStr × PyStr)
  | [] => if pattern = [] then some ([], []) else none
  | c :: text =>
      match splitLast pattern text with
      | some parts => some (c :: parts.1, parts.2)
      | none =>
          if pattern.isPrefixOf (c :: text) then some ([], (c :: text).drop pattern.length)
          else none

/-- `re.search(re.escape(start) + "(.*)" + re.escape(end), text, re.DOTALL)`: the text
before the match, the match, and the text after it. The first start is taken, and the
last end after it: if none follows the first start, none follows a later one. -/
def searchBlock (start stop text : PyStr) : Option (PyStr × PyStr × PyStr) :=
  match splitFirst start text with
  | none => none
  | some (before, rest) =>
      match splitLast stop rest with
      | none => none
      | some (inner, after) => some (before, start ++ inner ++ stop, after)

namespace JsonStructureParser

/-- The delimiters, in the order in which they are tried. -/
def delimiters : List (PyStr × PyStr) :=
  [(str "```json", str "```"), (str "```", str "```"), (str "`\x7b", str "\x7d`"),
    (str "\x7b", str "\x7d")]

/-- `_extract_delimited_block(text, delimiters)`. -/
def extractDelimitedBlock (text : PyStr) : List (PyStr × PyStr) → Option PyStr × PyStr
  | [] => (none, strip text)
  | (start, stop) :: rest =>
      match searchBlock start stop text with
      | some (before, main, after) => (some (strip main), strip (before ++ after))
      | none => extractDelimitedBlock text rest

/-- `parse_structure(content)`, and the remainder where there is a structure. Where no
block is found there is nothing to read, which raises a `TypeError` that is caught. -/
def parseStructure (loads : RepairLoads) (content : PyStr) :
    Except PyError (Option (Members × PyStr)) :=
  match extractDelimitedBlock content delimiters with
  | (none, _) => .ok none
  | (some meat, remainder) =>
      match loads meat with
      | .ok (.obj members) => .ok (some (members, remainder))
      | .ok _ => .ok none
      | .error .jsonDecodeError | .error .typeError => .ok none
      | .error e => .error e

end JsonStructureParser

/-- The parsers that there are. -/
inductive StructureParser where
  | json

/-- `create_structure_parser(parser_type)`. Only letters of ASCII become the letters of
`json` in lower case. -/
def createStructureParser : Json → Option StructureParser
  | .str parserType => if Text.lowerAscii parserType = str "json" then some .json else none
  | _ => none

/-- `parse_structure(content)` of a parser. -/
def StructureParser.parseStructure (loads : RepairLoads) :
    StructureParser → PyStr → Except PyError (Option (Members × PyStr))
  | .json => JsonStructureParser.parseStructure loads

namespace FirstAvailableStructureParser

/-- `parse_structure(content)`, and the remainder where there is a structure. -/
def parseStructure (loads : RepairLoads) (content : PyStr) :
    List Json → Except PyError (Option (Members × PyStr))
  | [] => .ok none
  | structureFormat :: rest =>
      match createStructureParser structureFormat with
      | none => parseStructure loads content rest
      | some parser =>
          match parser.parseStructure loads content with
          | .error e => .error e
          | .ok (some found) => .ok (some found)
          | .ok none => parseStructure loads content rest

@[simp] theorem parseStructure_nil (loads : RepairLoads) (content : PyStr) :
    parseStructure loads content [] = .ok none := rfl

end FirstAvailableStructureParser

/-- The list of formats that a processor makes of its setting. -/
def formatsOf : Json → Except PyError (List Json)
  | .null => .ok []
  | .str structureFormat => .ok [.str structureFormat]
  | .arr structureFormats => .ok structureFormats
  | _ => .error .valueError

end NoraFleet.Messages
