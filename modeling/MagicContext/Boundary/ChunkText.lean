import MagicContext.Json
import MagicContext.Text

/-!
# Text of chunks

What is cut out of messages before they are measured or shown to the historian.  The regular
expressions, and the upper case of characters outside ASCII, are parameters.

## What is here

* `TextTools` — the parameters.
* `cleanUserText`, `isSystemDirective` — what of a user's text counts.
* `compactTextForSummary`, `mergeCommitHashes` — commits an assistant speaks of.
* `formatBlockLine`, `extractKeyArg` — the lines of a chunk.
-/

namespace MagicContext.Boundary

open Text

/-- The regular expressions, under the names of the functions that hold them; those that only
replace are given as the replacement. -/
structure TextTools where
  /-- Without the system reminders. -/
  systemReminder : String → String
  /-- The first group of each match. -/
  commitHashExtract : String → List String
  /-- Without the commit hashes. -/
  removeCommitHashes : String → String
  commitVerb : String → Bool
  emptyParens : String → String
  spaceBeforeComma : String → String
  repeatedComma : String → String
  repeatedSpace : String → String
  spaceBeforePunct : String → String
  /-- `char::to_uppercase`. -/
  toUppercase : Char → String

def maxCommitsPerBlock : Nat := 5

def systemDirectivePrefix : String := "[SYSTEM DIRECTIVE: MAGIC-CONTEXT"

def omoInternalInitiatorMarker : String := "<!-- OMO_INTERNAL_INITIATOR -->"

structure CompactedText where
  text : String
  commitHashes : List String

/-- The first hashes that differ, in the order they come. -/
def distinctHashes (found : List String) : List String → List String
  | [] => found
  | hash :: rest =>
    if found.contains hash then distinctHashes found rest
    else if maxCommitsPerBlock ≤ found.length + 1 then found ++ [hash]
    else distinctHashes (found ++ [hash]) rest

variable (tools : TextTools)

def extractCommitHashes (text : String) : List String :=
  distinctHashes [] ((tools.commitHashExtract text).map String.toLower)

/-- `compact_text_for_summary`. -/
def compactTextForSummary (text role : String) : CompactedText :=
  let commitHashes := if role = "assistant" then extractCommitHashes tools text else []
  if commitHashes.isEmpty || !tools.commitVerb text then ⟨text, commitHashes⟩
  else
    let compacted := trimText (tools.spaceBeforePunct (tools.repeatedSpace (tools.repeatedComma
      (tools.spaceBeforeComma (tools.emptyParens (tools.removeCommitHashes text))))))
    ⟨if compacted = "" then text else compacted, commitHashes⟩

/-- `merge_commit_hashes`: the cap is looked at after a hash has been added. -/
def mergeCommitHashes (existing next : List String) : List String := distinctHashes existing next

/-- `format_block_line`. -/
def formatBlockLine (role : String) (startOrdinal endOrdinal : Nat) (commitHashes : List String)
    (parts : List String) : String :=
  let range :=
    if startOrdinal = endOrdinal then "[" ++ toString startOrdinal ++ "]"
    else "[" ++ toString startOrdinal ++ "-" ++ toString endOrdinal ++ "]"
  let commitSuffix :=
    if commitHashes.isEmpty then "" else " commits: " ++ String.intercalate ", " commitHashes
  range ++ " " ++ role ++ ":" ++ commitSuffix ++ " " ++ String.intercalate " / " parts

def truncateArg (value : String) : String :=
  if value.toList.length ≤ 60 then value else String.ofList (value.toList.take 60) ++ "…"

/-- `extract_key_arg`. -/
def extractKeyArg (input : Json) : Option String :=
  (["filePath", "path", "pattern", "query"].findSome? fun key =>
    (input.stringField key).map truncateArg) <|>
  ["symbol", "module", "action"].findSome? input.stringField

/-- `clean_user_text_cow`. -/
def cleanUserTextCow (text : String) : String :=
  replaceText omoInternalInitiatorMarker "" (tools.systemReminder text)

def cleanUserText (text : String) : String :=
  trimText (cleanUserTextCow tools text)

/-- `is_system_directive`. -/
def isSystemDirective (text : String) : Bool :=
  systemDirectivePrefix.toList.isPrefixOf (text.toList.dropWhile isWhitespace)

/-- `str::split_whitespace`. -/
def splitWhitespace (text : String) : List String :=
  ((text.toList.splitOnP isWhitespace).filter fun word => !word.isEmpty).map String.ofList

/-- `normalize_text`. -/
def normalizeText (text : String) : String := String.intercalate " " (splitWhitespace text)

/-- `compact_role`. -/
def compactRole (role : String) : String :=
  if role = "assistant" then "A"
  else if role = "user" then "U"
  else
    match role.toList with
    | [] => "M"
    | c :: _ => if tools.toUppercase c = "" then "M" else tools.toUppercase c

end MagicContext.Boundary
