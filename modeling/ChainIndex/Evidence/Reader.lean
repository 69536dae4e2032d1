import ChainIndex.Evidence
import ChainIndex.Json.Fields

/-!
# Evidence read

An issue is read from an object with the numbers, hashes and texts that it is about.  The
member `ctor` says what it is evidence of.  Without it, the kind and the extras are
given.  A kind that is unknown reads as a failure.
-/

namespace ChainIndex

/-- An issue. -/
def Issue.ofParts (j : Json) : Issue :=
  let number := j.wordAt "number"
  let hash := j.textAt "hash"
  let tx := j.textAt "tx_hash"
  match j.textAt "ctor" with
  | "reorg" => Issue.reorg number (j.textAt "old") (j.textAt "new")
  | "duplicated_block_hash" => Issue.duplicatedBlockHash hash number (j.wordAt "prev_number")
  | "duplicated_tx_hash" =>
    Issue.duplicatedTxHash tx number hash (j.wordAt "prev_number") (j.textAt "prev_hash")
  | "error" => Issue.failure number hash tx (j.textAt "message")
  | _ =>
    let kind := match IssueKind.ofName (j.textAt "kind") with
      | .ok kind => kind
      | .error _ => .error
    Issue.make kind number hash tx (j.membersAt "extras")

end ChainIndex
