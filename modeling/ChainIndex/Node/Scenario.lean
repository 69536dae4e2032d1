import ChainIndex.Chain.Sample
import ChainIndex.Fault.Reader
import ChainIndex.Node.Script

/-!
# Scripts written down

A scenario is an object that changes the script of a node.  Its members apply in this
order, each where it is present: `chain`, `blocks`, `at`, `missing`, `head`,
`head_errors`, `head_broken`, `tx_errors`, `fail`, `broken`, `repair`, `repair_head`.
-/

namespace ChainIndex

namespace Script

/-- The first block, the last block and the fork of a chain. -/
def putChain (s : Script) (j : Json) : Script :=
  match j.items? with
  | some (first :: last :: rest) =>
    let s := (Sample.chain first.asWord last.asWord ((rest.head?.map Json.asNat).getD 0)).foldl
      (fun s (number, b) => s.put number b) s
    { s with head := last.asWord }
  | _ => s

/-- A block at a number that may not be its own. -/
def putAt (s : Script) (j : Json) : Script :=
  match j.items? with
  | some [number, block] =>
    match Sample.block block with
    | .ok b => s.put number.asWord b
    | .error _ => s
  | _ => s

/-- A node after a scenario. -/
def after (s : Script) (j : Json) : Script :=
  let s := s.putChain (j.member "chain")
  let s := (Sample.blocks (j.itemsAt "blocks")).foldl (fun s b => s.put b.numberWord b) s
  let s := (j.itemsAt "at").foldl putAt s
  let s := (j.wordsAt "missing").foldl remove s
  let s := { s with
    head := (j.word? "head").getD s.head
    headQueue := s.headQueue ++ (j.itemsAt "head_errors").map NodeFault.ofJson
    headBroken := (NodeFault.ofJson? (j.member "head_broken")).or s.headBroken
    transactionQueue := s.transactionQueue ++ (j.itemsAt "tx_errors").map NodeFault.ofJson }
  let s := (j.itemsAt "fail").foldl (fun s f =>
    s.failNext (f.wordAt "number") (NodeFault.ofJson (f.member "error")) (f.natAt "times")) s
  let s := (j.itemsAt "broken").foldl (fun s f =>
    s.failAlways (f.wordAt "number") (NodeFault.ofJson (f.member "error"))) s
  let s := (j.wordsAt "repair").foldl repair s
  if j.boolAt "repair_head" then { s with headBroken := none } else s

end Script

end ChainIndex
