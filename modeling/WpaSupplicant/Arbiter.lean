import WpaSupplicant.Interworking.Credentials
import WpaSupplicant.Lib.Ring

namespace WpaSupplicant.Arbiter

open Bss Interworking Lib.Ring

-- `INTERWORKING_IE_ID`
def eidInterworking : UInt8 := 107

-- `enum arbiter_state`
inductive ArbiterState where
  | idle
  | querying
  | deciding
  deriving DecidableEq, Repr

-- The filters of `arbiter_init`
inductive Filter where
  | freePublic
  | accessInternet
  | random
  deriving DecidableEq, Repr

-- What the arbiter reports. The candidates are those that `display_candidates` shows.
inductive Message where
  | startSelecting
  | available (candidates : List Ptr)
  | left (filter : Filter) (candidates : List Ptr)
  | noneLeft
  deriving DecidableEq, Repr

-- `struct arbiter_type`
structure ArbiterType where
  state : ArbiterState := .idle
  setAuto : Bool := false
  out : List Message := []
  deriving DecidableEq, Repr

def ArbiterType.emit (arb : ArbiterType) (m : Message) : ArbiterType := { arb with out := arb.out ++ [m] }

-- `arbiter->filters`
def filters : List Filter := [.freePublic, .accessInternet, .random]

def isFreePublic (bss : Entry) : Bool :=
  match getIe bss.ies eidInterworking with
  | none => false
  | some ie => if ie.length < 1 then false else ie.getD 0 0 &&& 0x0f = 3

def ieInterworkingInternet (bss : Entry) : Bool :=
  match getIe bss.ies eidInterworking with
  | none => false
  | some ie => 1 ≤ ie.length && (ie.getD 0 0 &&& 0x10) ≠ 0

-- The candidates: the links of their list, whose head is the node 0, and the BSS of each. Those that are built
-- have the nodes from 1 on.
structure Candidates where
  links : Links ℕ
  bss : ℕ → Ptr

def listHead : ℕ := 0

namespace Candidates

def shown (c : Candidates) (fuel : ℕ) : List Ptr := (c.links.walk listHead fuel (c.links.next listHead)).map c.bss

def sweep (c : Candidates) (fuel : ℕ) (keep : Ptr → Bool) : Candidates :=
  { c with links := Links.sweep (fun p => keep (c.bss p)) listHead fuel (c.links.next listHead) none c.links }

-- The list behind `dl_list_init`
def empty : Candidates :=
  { links := Links.init { next := fun _ => none, prev := fun _ => none } listHead, bss := fun _ => 0 }

-- `add_candidate`
def add (c : Candidates) (p : ℕ) : Candidates := { c with links := c.links.addTail listHead p }

-- `random_filter`, or nothing where the modulus is zero or no candidate is found
def randomFilter (c : Candidates) (fuel osRandom : ℕ) : Option Candidates :=
  let num := c.links.len listHead fuel
  if num = 0 then none
  else
    let (ret, links) := Links.drain (osRandom % num) listHead fuel 0 none c.links
    ret.map ({ c with links := links } : Candidates).add

end Candidates

variable (t : Table) (fuel osRandom : ℕ)

def Filter.run (c : Candidates) : Filter → Option Candidates
  | .freePublic => some (c.sweep fuel fun p => isFreePublic (t.heap p))
  | .accessInternet => some (c.sweep fuel fun p => ieInterworkingInternet (t.heap p))
  | .random => c.randomFilter fuel osRandom

-- The loop of `arbiter_select` over the filters
def runFilters : List Filter → Candidates → ArbiterType → Option (Candidates × ArbiterType)
  | [], c, arb => some (c, arb)
  | f :: fs, c, arb =>
    match f.run t fuel osRandom c with
    | none => none
    | some c =>
      let arb := arb.emit (.left f (c.shown fuel))
      if c.links.empty listHead then some (c, arb) else runFilters fs c arb

def arbiterSelect (c : Candidates) (arb : ArbiterType) : Option (Option Ptr × ArbiterType) :=
  let arb := { arb with state := .deciding }
  let arb := (arb.emit .startSelecting).emit (.available (c.shown fuel))
  match runFilters t fuel osRandom filters c arb with
  | none => none
  | some (c, arb) =>
    let arb := { arb with state := .idle }
    match c.links.first listHead with
    | none => some (none, arb.emit .noneLeft)
    | some candidate => some (some (c.bss candidate), arb)

-- What `interworking_select_network` does: the messages about BSSs, and the calls of `interworking_connect`
structure Selection where
  networkSelect : Bool := false
  aps : List Addr
  noMatch : Bool
  connected : List (Ptr × Connect)
  arbiter : ArbiterType

-- The loop of `interworking_select_network` over the BSSs: the candidates, how many are built, and who has
-- matching credentials
def collect (conf : HomeConf) (autoSelect : Bool) : List Ptr → Candidates → ℕ → List Ptr → Candidates × List Ptr
  | [], c, _, found => (c, found)
  | bss :: rest, c, count, found =>
    if interworkingCredentialsAvailable conf (t.heap bss) then
      let candidate := count + 1
      let c := { c with bss := Function.update c.bss candidate bss }
      collect conf autoSelect rest (if autoSelect then c.add candidate else c) (count + 1) (found ++ [bss])
    else collect conf autoSelect rest c count found

def interworkingSelectNetwork (conf : HomeConf) (arb : ArbiterType) (autoSelect : Bool) : Option Selection :=
  let (candidates, found) := collect t conf autoSelect t.bss Candidates.empty 0 []
  match arbiterSelect t (t.bss.length + 1) osRandom candidates arb with
  | none => none
  | some (selected, arb) =>
    some
      { aps := found.map fun p => (t.heap p).bssid
        noMatch := found.isEmpty
        connected := selected.toList.map fun p => (p, interworkingConnect conf (t.heap p))
        arbiter := arb }

end WpaSupplicant.Arbiter
