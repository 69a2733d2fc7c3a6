import WpaSupplicant.Ap.Mlme
import WpaSupplicant.Lib.Machine
import WpaSupplicant.Lib.Tally

namespace WpaSupplicant.Ap.Protection

open Lib.Octets Lib.Machine Lib.Tally Mlme

-- What a station may lack. For each the interface has a counter (`num_sta_non_erp`,
-- `num_sta_no_short_slot_time`, `num_sta_no_short_preamble`, `num_sta_no_ht`, `num_sta_ht_no_gf`,
-- `num_sta_ht_20mhz`), and a station has a bit (`nonerp_set`, `no_short_slot_time_set`,
-- `no_short_preamble_set`, `no_ht_set`, `no_ht_gf_set`, `ht_20mhz_set`).
inductive Lack where
  | nonErp
  | noShortSlotTime
  | noShortPreamble
  | noHt
  | htNoGf
  | ht20mhz
  deriving DecidableEq, Repr

-- `hostapd_hw_mode`
inductive HwMode where
  | b
  | g
  | a
  deriving DecidableEq, Repr

structure BssConfig where
  ssid : Octets
  maxListenInterval : ℕ := 65535
  disable11n : Bool := false

structure Config where
  bss : ℕ → BssConfig
  mode : HwMode
  ieee80211n : Bool := false
  requireHt : Bool := false
  htOpModeFixed : Bool := false
  htCapab : ℕ := 0

structure StaRef where
  hapd : ℕ
  addr : Addr
  deriving DecidableEq, Repr

-- The fields of `struct sta_info` that are read here; `set` are the bits for the counters.
structure Sta where
  auth : Bool := false
  assocReqOk : Bool := false
  shortPreamble : Bool := false
  nonerp : Bool := false
  ht : Bool := false
  capability : ℕ := 0
  listenInterval : ℕ := 0
  supportedRates : Octets := []
  htCapabilities : Option Octets := none
  set : Lack → Bool := fun _ => false

-- `struct hostapd_iface`, with the station tables of its BSSs as one list, and the counters
structure Iface where
  stas : List StaRef := []
  mem : StaRef → Sta := fun _ => {}
  num : Lack → ℤ := fun _ => 0
  olbcHt : Bool := false
  htOpMode : BitVec 16 := 0

namespace Iface

def modify (i : Iface) (sta : StaRef) (f : Sta → Sta) : Iface :=
  { i with mem := Function.update i.mem sta (f (i.mem sta)) }

def setBit (i : Iface) (sta : StaRef) (k : Lack) (bit : Bool) (num : ℤ) : Iface :=
  { i.modify sta (fun s => { s with set := Function.update s.set k bit }) with
    num := Function.update i.num k num }

def note (i : Iface) (sta : StaRef) (k : Lack) (lacking : Bool) : Iface :=
  if lacking && !(i.mem sta).set k then i.setBit sta k true (i.num k + 1) else i

def release (i : Iface) (sta : StaRef) (k : Lack) : Iface :=
  if (i.mem sta).set k then i.setBit sta k false (i.num k - 1) else i

end Iface

-- `HT_INFO_OPERATION_MODE_*`
def nonGfDevsPresent : BitVec 16 := 4
def nonHtStaPresent : BitVec 16 := 16
def opModeMask : BitVec 16 := 3

-- `OP_MODE_*`
def opModePure : BitVec 16 := 0
def opModeMayBeLegacyStas : BitVec 16 := 1
def opMode20mhzHtStaAssoced : BitVec 16 := 2
def opModeMixed : BitVec 16 := 3

def setFlag (mode flag : BitVec 16) (present : Bool) : BitVec 16 × ℕ :=
  if mode &&& flag = 0 ∧ present then (mode ||| flag, 1)
  else if mode &&& flag ≠ 0 ∧ !present then (mode &&& ~~~flag, 1)
  else (mode, 0)

-- `new_op_mode` of `hostapd_ht_operation_update`
def newOpMode (c : Config) (i : Iface) : BitVec 16 :=
  if i.num .noHt ≠ 0 then opModeMixed
  else if c.htCapab.testBit 1 ∧ i.num .ht20mhz ≠ 0 then opMode20mhzHtStaAssoced
  else if i.olbcHt then opModeMayBeLegacyStas
  else opModePure

-- `hostapd_ht_operation_update`, with the number of changes it returns
def hostapdHtOperationUpdate (c : Config) (i : Iface) : Iface × ℕ :=
  if !c.ieee80211n || c.htOpModeFixed then (i, 0)
  else
    let gf := setFlag i.htOpMode nonGfDevsPresent (i.num .htNoGf ≠ 0)
    let ht := setFlag gf.1 nonHtStaPresent (i.num .noHt ≠ 0 || i.olbcHt)
    if ht.1 &&& opModeMask ≠ newOpMode c i then
      ({ i with htOpMode := (ht.1 &&& ~~~opModeMask) ||| newOpMode c i }, gf.2 + ht.2 + 1)
    else ({ i with htOpMode := ht.1 }, gf.2 + ht.2)

def updateStaHt (i : Iface) (sta : StaRef) (htCapab : ℕ) : Iface :=
  (i.note sta .htNoGf (!htCapab.testBit 4)).note sta .ht20mhz (!htCapab.testBit 1)

def updateStaNoHt (i : Iface) (sta : StaRef) : Iface := i.note sta .noHt true

-- The field `ht_capabilities_info` of HT capabilities
def htCapabilitiesInfo (htCapab : Octets) : ℕ :=
  (htCapab.getD 0 0).toNat + 256 * (htCapab.getD 1 0).toNat

-- `update_ht_state`. The beacons that are set are left out.
def updateHtState (c : Config) (i : Iface) (sta : StaRef) : Iface :=
  let i :=
    match (i.mem sta).ht, (i.mem sta).htCapabilities with
    | true, some htCapab => updateStaHt i sta (htCapabilitiesInfo htCapab)
    | _, _ => updateStaNoHt i sta
  (hostapdHtOperationUpdate c i).1

-- What the environment answers: the countermeasures, the allocator, the rest of `check_assoc_ies`
-- from the WPA/RSN IE on, and whether there is an AID
structure AssocAnswers where
  tkipCountermeasures : Bool := false
  alloc : Bool := true
  wpaIe : Status := .success
  aid : Bool := true
  deriving DecidableEq, Repr

def copySuppRates (elems : Elems) (s : Sta) : Sta × Status :=
  match elems.suppRates with
  | none => (s, .unspecifiedFailure)
  | some rates =>
    if 32 < rates.length then (s, .unspecifiedFailure)
    else
      let s := { s with supportedRates := rates }
      match elems.extSuppRates with
      | none => (s, .success)
      | some ext =>
        if 32 < rates.length + ext.length then (s, .unspecifiedFailure)
        else ({ s with supportedRates := rates ++ ext }, .success)

-- `sizeof(struct ieee80211_ht_capabilities)`
def htCapabilitiesSize : ℕ := 26

def copyStaHtCapab (conf : BssConfig) (elems : Elems) (alloc : Bool) (s : Sta) : Sta × Status :=
  match elems.htCapabilities with
  | none => ({ s with ht := false, htCapabilities := none }, .success)
  | some htCapab =>
    if htCapab.length < htCapabilitiesSize ∨ conf.disable11n then
      ({ s with ht := false, htCapabilities := none }, .success)
    else if s.htCapabilities.isNone ∧ !alloc then (s, .unspecifiedFailure)
    else ({ s with ht := true, htCapabilities := some (htCapab.take htCapabilitiesSize) }, .success)

-- `check_assoc_ies`, with the status of what it does from the WPA/RSN IE on as an answer
def checkAssocIes (c : Config) (conf : BssConfig) (ies : Octets) (ans : AssocAnswers) (s : Sta) :
    Sta × Status :=
  match ieee80211ParseElems ies with
  | none => (s, .unspecifiedFailure)
  | some elems =>
    if elems.ssid ≠ some conf.ssid then (s, .unspecifiedFailure)
    else
      let r := copySuppRates elems s
      if r.2 ≠ .success then r
      else
        let r := copyStaHtCapab conf elems ans.alloc r.1
        if r.2 ≠ .success then r
        else if c.ieee80211n && c.requireHt && !r.1.ht then (r.1, .assocDeniedNoHt)
        else (r.1, ans.wpaIe)

-- The tests of `handle_assoc` for a station that is authenticated
def checkAssoc (c : Config) (conf : BssConfig) (f : AssocFrame) (ans : AssocAnswers) (s : Sta) :
    Sta × Status :=
  if ans.tkipCountermeasures then (s, .michaelMicFailure)
  else if conf.maxListenInterval < f.listenInterval then (s, .assocDeniedListenIntTooLarge)
  else
    let r := checkAssocIes c conf f.ies ans s
    if r.2 ≠ .success then r
    else if !ans.aid then (r.1, .apUnableToHandleNewSta)
    else r

def erpRate (rate : UInt8) : Bool := 22 < rate &&& 0x7f

-- `WLAN_STA_NONERP`, by the rates of a station
def checkRates (mode : HwMode) (s : Sta) : Sta :=
  { s with nonerp := !s.supportedRates.any erpRate && (decide (mode = .g) || s.nonerp) }

-- `handle_assoc` for a request that passed the tests
def assocOk (c : Config) (i : Iface) (sta : StaRef) (f : AssocFrame) : Iface :=
  let i := i.modify sta fun s =>
    checkRates c.mode { s with capability := f.capabInfo, listenInterval := f.listenInterval }
  let i := i.note sta .nonErp (i.mem sta).nonerp
  let i := i.note sta .noShortSlotTime (!(i.mem sta).capability.testBit 10)
  let i := i.modify sta fun s => { s with shortPreamble := s.capability.testBit 5 }
  let i := i.note sta .noShortPreamble (!(i.mem sta).capability.testBit 5)
  let i := updateHtState c i sta
  i.modify sta fun s => { s with assocReqOk := true }

-- The status `handle_assoc` finds; `none` for a station that is not authenticated.
def assocStatus (c : Config) (i : Iface) (hapd : ℕ) (f : AssocFrame) (ans : AssocAnswers) :
    Option Status :=
  if ⟨hapd, f.sa⟩ ∉ i.stas ∨ !(i.mem ⟨hapd, f.sa⟩).auth then none
  else some (checkAssoc c (c.bss hapd) f ans (i.mem ⟨hapd, f.sa⟩)).2

-- `handle_assoc`. The frames that are sent are left out.
def handleAssoc (c : Config) (i : Iface) (hapd : ℕ) (f : AssocFrame) (ans : AssocAnswers) : Iface :=
  let sta : StaRef := ⟨hapd, f.sa⟩
  match assocStatus c i hapd f ans with
  | none => i
  | some resp =>
    let i := i.modify sta fun s => (checkAssoc c (c.bss hapd) f ans s).1
    if resp = .success then assocOk c i sta f else i

-- `ap_sta_add`; there is no `room` where the table is full or the allocator fails.
def apStaAdd (i : Iface) (sta : StaRef) (room : Bool) : Iface :=
  if sta ∈ i.stas ∨ !room then i
  else { i.modify sta (fun _ => {}) with stas := sta :: i.stas }

def apFreeSta (c : Config) (i : Iface) (sta : StaRef) : Iface :=
  let i := { i with stas := i.stas.erase sta }
  let i := [.nonErp, .noShortSlotTime, .noShortPreamble, .htNoGf, .noHt, .ht20mhz].foldl
    (fun i k => i.release sta k) i
  (hostapdHtOperationUpdate c i).1

-- What happens at an interface: a station is added, authenticated or no longer so, asks to be
-- associated, is freed, or networks without HT are seen or gone.
inductive Event where
  | addSta (sta : StaRef) (room : Bool)
  | setAuth (sta : StaRef) (auth : Bool)
  | assoc (hapd : ℕ) (f : AssocFrame) (ans : AssocAnswers)
  | freeSta (sta : StaRef)
  | olbcHt (seen : Bool)

-- An interface, with the last request of each station that was accepted
structure World where
  iface : Iface := {}
  latest : StaRef → Option AssocFrame := fun _ => none

def accepted (c : Config) (i : Iface) (hapd : ℕ) (f : AssocFrame) (ans : AssocAnswers) : Prop :=
  assocStatus c i hapd f ans = some .success

instance (c : Config) (i : Iface) (hapd : ℕ) (f : AssocFrame) (ans : AssocAnswers) :
    Decidable (accepted c i hapd f ans) :=
  inferInstanceAs (Decidable (assocStatus c i hapd f ans = some .success))

def exec (c : Config) (w : World) : Event → World
  | .addSta sta room =>
    { iface := apStaAdd w.iface sta room
      latest := if sta ∈ w.iface.stas then w.latest else Function.update w.latest sta none }
  | .setAuth sta auth => { w with iface := w.iface.modify sta fun s => { s with auth := auth } }
  | .assoc hapd f ans =>
    { iface := handleAssoc c w.iface hapd f ans
      latest :=
        if accepted c w.iface hapd f ans then Function.update w.latest ⟨hapd, f.sa⟩ (some f)
        else w.latest }
  | .freeSta sta =>
    if sta ∈ w.iface.stas then { w with iface := apFreeSta c w.iface sta } else w
  | .olbcHt seen =>
    { w with iface := (hostapdHtOperationUpdate c { w.iface with olbcHt := seen }).1 }

def elemsOf (f : AssocFrame) : Elems := (ieee80211ParseElems f.ies).getD {}

def ratesOf (f : AssocFrame) : Octets :=
  (elemsOf f).suppRates.getD [] ++ (elemsOf f).extSuppRates.getD []

def htIn (conf : BssConfig) (elems : Elems) : Option Octets :=
  if conf.disable11n then none else elems.htCapabilities.filter (htCapabilitiesSize ≤ ·.length)

def htOf (conf : BssConfig) (f : AssocFrame) : Option Octets := htIn conf (elemsOf f)

def lacksOf (c : Config) (hapd : ℕ) (f : AssocFrame) : Lack → Bool
  | .nonErp => decide (c.mode = .g) && !(ratesOf f).any erpRate
  | .noShortSlotTime => !f.capabInfo.testBit 10
  | .noShortPreamble => !f.capabInfo.testBit 5
  | .noHt => (htOf (c.bss hapd) f).isNone
  | .htNoGf => (htOf (c.bss hapd) f).any fun ht => !(htCapabilitiesInfo ht).testBit 4
  | .ht20mhz => (htOf (c.bss hapd) f).any fun ht => !(htCapabilitiesInfo ht).testBit 1

-- What a station lacks, by the last request that was accepted
def World.lacks (c : Config) (w : World) (sta : StaRef) (k : Lack) : Bool :=
  (w.latest sta).any fun f => lacksOf c sta.hapd f k

-- The counters are the numbers of the stations, and the operation mode is mixed while there is a
-- station without HT.
structure Follows (c : Config) (w : World) : Prop where
  counts : ∀ k, w.iface.num k = w.iface.stas.countP fun sta => w.lacks c sta k
  mixed : c.ieee80211n → !c.htOpModeFixed →
    (w.iface.htOpMode &&& opModeMask = opModeMixed ↔ ∃ sta ∈ w.iface.stas, w.lacks c sta .noHt)

def GainsNothing (c : Config) (w : World) : Event → Prop
  | .assoc hapd f ans => accepted c w.iface hapd f ans →
      ∀ k, w.lacks c ⟨hapd, f.sa⟩ k → lacksOf c hapd f k
  | _ => True

section Lemmas

variable {c : Config} {i j : Iface} {sta : StaRef} {w : World}

@[simp] theorem mem_modify (f : Sta → Sta) : (i.modify sta f).mem sta = f (i.mem sta) := by
  simp [Iface.modify]

theorem mem_modify_ne (f : Sta → Sta) {a : StaRef} (ha : a ≠ sta) :
    (i.modify sta f).mem a = i.mem a := by
  simp [Iface.modify, ha]

theorem set_modify (f : Sta → Sta) (hf : ∀ s, (f s).set = s.set) (a : StaRef) :
    ((i.modify sta f).mem a).set = (i.mem a).set := by
  by_cases ha : a = sta
  · subst ha
    rw [mem_modify, hf]
  · rw [mem_modify_ne f ha]

@[simp] theorem mem_note (k : Lack) (l : Bool) :
    (i.note sta k l).mem sta =
      { i.mem sta with set := fun k' => (i.mem sta).set k' || (decide (k' = k) && l) } := by
  by_cases hcond : (l && !(i.mem sta).set k) = true
  · rw [Iface.note, if_pos hcond]
    obtain ⟨hl, hk⟩ : l = true ∧ (i.mem sta).set k = false := by simpa using hcond
    have hset : Function.update (i.mem sta).set k true =
        fun k' => (i.mem sta).set k' || (decide (k' = k) && l) := by
      funext k'
      by_cases hkk : k' = k
      · simp [hkk, hl]
      · simp [hkk]
    simp [Iface.setBit, hset]
  · rw [Iface.note, if_neg hcond]
    have hset : (fun k' => (i.mem sta).set k' || (decide (k' = k) && l)) = (i.mem sta).set := by
      funext k'
      by_cases hkk : k' = k
      · subst hkk
        cases hl : l <;> simp_all
      · simp [hkk]
    rw [hset]

theorem hostapdHtOperationUpdate_eq (c : Config) (i : Iface) :
    ∃ mode, (hostapdHtOperationUpdate c i).1 = { i with htOpMode := mode } := by
  unfold hostapdHtOperationUpdate
  split
  · exact ⟨i.htOpMode, rfl⟩
  simp only []
  split
  · exact ⟨_, rfl⟩
  · exact ⟨_, rfl⟩

@[simp] theorem mem_hostapdHtOperationUpdate : (hostapdHtOperationUpdate c i).1.mem = i.mem := by
  obtain ⟨mode, heq⟩ := hostapdHtOperationUpdate_eq c i
  rw [heq]

@[simp] theorem num_hostapdHtOperationUpdate : (hostapdHtOperationUpdate c i).1.num = i.num := by
  obtain ⟨mode, heq⟩ := hostapdHtOperationUpdate_eq c i
  rw [heq]

@[simp] theorem stas_hostapdHtOperationUpdate : (hostapdHtOperationUpdate c i).1.stas = i.stas := by
  obtain ⟨mode, heq⟩ := hostapdHtOperationUpdate_eq c i
  rw [heq]

-- The operation mode is mixed while the counter of the stations without HT is not zero.
def Tuned (c : Config) (i : Iface) : Prop :=
  c.ieee80211n → !c.htOpModeFixed →
    (i.htOpMode &&& opModeMask = opModeMixed ↔ i.num .noHt ≠ 0)

theorem newOpMode_eq_mixed : newOpMode c i = opModeMixed ↔ i.num .noHt ≠ 0 := by
  unfold newOpMode
  by_cases hnum : i.num .noHt ≠ 0
  · simp [hnum]
  rw [if_neg hnum]
  have hother : ∀ b : Prop, [Decidable b] → ∀ b' : Bool,
      (if b then opMode20mhzHtStaAssoced else if b' then opModeMayBeLegacyStas else opModePure) ≠
        opModeMixed := by
    intro b _ b'
    by_cases hb : b
    · rw [if_pos hb]
      decide
    · rw [if_neg hb]
      cases b' <;> decide
  simp [hother, hnum]

theorem newOpMode_mask : newOpMode c i &&& opModeMask = newOpMode c i := by
  unfold newOpMode
  split
  · rfl
  split
  · rfl
  · split <;> rfl

theorem replace_mask (mode new mask : BitVec 16) (hnew : new &&& mask = new) :
    ((mode &&& ~~~mask) ||| new) &&& mask = new := by
  ext n hn
  have hbit := congrArg (fun v : BitVec 16 => v[n]) hnew
  simp only [BitVec.getElem_and] at hbit
  simp only [BitVec.getElem_and, BitVec.getElem_or, BitVec.getElem_not]
  cases hmask : mask[n] <;> simp_all

theorem hostapdHtOperationUpdate_tuned : Tuned c (hostapdHtOperationUpdate c i).1 := by
  intro hn hfixed
  rw [num_hostapdHtOperationUpdate, ← newOpMode_eq_mixed (c := c)]
  unfold hostapdHtOperationUpdate
  rw [if_neg (by simp_all)]
  simp only []
  split
  case isTrue h => simp only [replace_mask _ _ _ newOpMode_mask]
  case isFalse h => rw [not_not.mp h]

structure Touched (sta : StaRef) (i j : Iface) : Prop where
  stas : j.stas = i.stas
  other : ∀ a, a ≠ sta → j.mem a = i.mem a
  num : ∀ k, j.num k - ((j.mem sta).set k).toNat = i.num k - ((i.mem sta).set k).toNat

theorem Touched.refl : Touched sta i i := ⟨rfl, fun _ _ => rfl, fun _ => rfl⟩

theorem Touched.trans {l : Iface} (h : Touched sta i j) (h' : Touched sta j l) : Touched sta i l where
  stas := h'.stas.trans h.stas
  other a ha := (h'.other a ha).trans (h.other a ha)
  num k := (h'.num k).trans (h.num k)

theorem touched_modify (f : Sta → Sta) (hf : ∀ s, (f s).set = s.set) :
    Touched sta i (i.modify sta f) where
  stas := rfl
  other _ ha := mem_modify_ne f ha
  num k := by
    rw [mem_modify, hf]
    rfl

theorem touched_setBit {k : Lack} {bit : Bool} {num : ℤ}
    (hnum : num - bit.toNat = i.num k - ((i.mem sta).set k).toNat) :
    Touched sta i (i.setBit sta k bit num) where
  stas := rfl
  other _ ha := mem_modify_ne (fun s => { s with set := Function.update s.set k bit }) ha
  num k' := by
    by_cases hkk : k' = k
    · subst hkk
      simpa [Iface.setBit] using hnum
    · simp [Iface.setBit, hkk]

theorem touched_note (k : Lack) (l : Bool) : Touched sta i (i.note sta k l) := by
  by_cases hcond : (l && !(i.mem sta).set k) = true
  · rw [Iface.note, if_pos hcond]
    obtain ⟨-, hk⟩ : l = true ∧ (i.mem sta).set k = false := by simpa using hcond
    exact touched_setBit (by simp [hk])
  · rw [Iface.note, if_neg hcond]
    exact .refl

theorem touched_release (k : Lack) : Touched sta i (i.release sta k) := by
  by_cases hk : (i.mem sta).set k = true
  · rw [Iface.release, if_pos hk]
    exact touched_setBit (by simp [hk])
  · rw [Iface.release, if_neg hk]
    exact .refl

theorem touched_hostapdHtOperationUpdate : Touched sta i (hostapdHtOperationUpdate c i).1 where
  stas := stas_hostapdHtOperationUpdate
  other a _ := by rw [mem_hostapdHtOperationUpdate]
  num k := by rw [mem_hostapdHtOperationUpdate, num_hostapdHtOperationUpdate]

theorem touched_updateHtState : Touched sta i (updateHtState c i sta) := by
  unfold updateHtState
  refine Touched.trans ?_ touched_hostapdHtOperationUpdate
  split
  · exact (touched_note _ _).trans (touched_note _ _)
  · exact touched_note _ _

theorem touched_assocOk (f : AssocFrame) : Touched sta i (assocOk c i sta f) := by
  unfold assocOk
  refine Touched.trans ?_ (touched_modify _ fun _ => rfl)
  refine Touched.trans ?_ touched_updateHtState
  refine Touched.trans ?_ (touched_note _ _)
  refine Touched.trans ?_ (touched_modify _ fun _ => rfl)
  refine Touched.trans ?_ (touched_note _ _)
  refine Touched.trans ?_ (touched_note _ _)
  exact touched_modify _ fun _ => rfl

def Counted (i : Iface) : Prop := ∀ k, i.num k = i.stas.countP fun sta => (i.mem sta).set k

theorem Counted.of_set (h : Counted i) (hstas : j.stas = i.stas) (hnum : j.num = i.num)
    (hset : ∀ a, (j.mem a).set = (i.mem a).set) : Counted j := by
  intro k
  simp only [hstas, hnum, hset, h k]

theorem Counted.touched (h : Counted i) (hnodup : i.stas.Nodup) (hsta : sta ∈ i.stas)
    (hij : Touched sta i j) : Counted j := by
  intro k
  have hchange := countP_change hnodup hsta (p := fun a => (i.mem a).set k)
    (q := fun a => (j.mem a).set k) fun a ha => by simp only [hij.other a ha]
  have hi := h k
  have hnum := hij.num k
  rw [hij.stas]
  omega

-- What a station lacks once its record was brought in line with a request
def lacksAs (mode : HwMode) (f : AssocFrame) (s : Sta) : Lack → Bool
  | .nonErp => (checkRates mode s).nonerp
  | .noShortSlotTime => !f.capabInfo.testBit 10
  | .noShortPreamble => !f.capabInfo.testBit 5
  | .noHt => !s.ht || s.htCapabilities.isNone
  | .htNoGf => s.ht && s.htCapabilities.any fun ht => !(htCapabilitiesInfo ht).testBit 4
  | .ht20mhz => s.ht && s.htCapabilities.any fun ht => !(htCapabilitiesInfo ht).testBit 1

theorem mem_updateHtState (mode : HwMode) (f : AssocFrame) :
    (updateHtState c i sta).mem sta =
      { i.mem sta with set := fun k => (i.mem sta).set k ||
          ((k = .noHt ∨ k = .htNoGf ∨ k = .ht20mhz) && lacksAs mode f (i.mem sta) k) } := by
  unfold updateHtState
  simp only [mem_hostapdHtOperationUpdate]
  split
  case h_1 htCapab hht hcap =>
    simp only [updateStaHt, mem_note]
    congr 1
    funext k
    cases k <;> simp [lacksAs, hht, hcap]
  case h_2 hno =>
    have hlacks : lacksAs mode f (i.mem sta) .noHt = true := by
      cases hht : (i.mem sta).ht <;> cases hcap : (i.mem sta).htCapabilities <;> simp_all [lacksAs]
    have hgf : lacksAs mode f (i.mem sta) .htNoGf = false := by
      cases hht : (i.mem sta).ht <;> cases hcap : (i.mem sta).htCapabilities <;> simp_all [lacksAs]
    have h20 : lacksAs mode f (i.mem sta) .ht20mhz = false := by
      cases hht : (i.mem sta).ht <;> cases hcap : (i.mem sta).htCapabilities <;> simp_all [lacksAs]
    simp only [updateStaNoHt, mem_note]
    congr 1
    funext k
    cases k <;> simp [hlacks, hgf, h20]

theorem assocOk_set (f : AssocFrame) (k : Lack) :
    ((assocOk c i sta f).mem sta).set k =
      ((i.mem sta).set k || lacksAs c.mode f (i.mem sta) k) := by
  unfold assocOk
  simp only [mem_modify, mem_updateHtState c.mode f, mem_note]
  cases k <;> simp [lacksAs, checkRates]

theorem copySuppRates_keeps (elems : Elems) (s : Sta) :
    (copySuppRates elems s).1.set = s.set ∧ (copySuppRates elems s).1.nonerp = s.nonerp := by
  unfold copySuppRates
  split
  · exact ⟨rfl, rfl⟩
  split
  · exact ⟨rfl, rfl⟩
  simp only []
  split
  · exact ⟨rfl, rfl⟩
  · split <;> exact ⟨rfl, rfl⟩

variable {s : Sta} {conf : BssConfig}

theorem copySuppRates_success {elems : Elems} (h : (copySuppRates elems s).2 = .success) :
    (copySuppRates elems s).1.supportedRates =
      elems.suppRates.getD [] ++ elems.extSuppRates.getD [] := by
  unfold copySuppRates at h ⊢
  split at h
  · simp at h
  case h_2 rates hrates =>
    split at h
    · simp at h
    rw [if_neg ‹_›]
    simp only [] at h ⊢
    split at h
    case h_1 hext => simp [hrates, hext]
    case h_2 ext hext =>
      split at h
      · simp at h
      · rw [if_neg ‹_›]
        simp [hrates, hext]

theorem copyStaHtCapab_keeps (conf : BssConfig) (elems : Elems) (alloc : Bool) (s : Sta) :
    (copyStaHtCapab conf elems alloc s).1.set = s.set ∧
      (copyStaHtCapab conf elems alloc s).1.nonerp = s.nonerp ∧
      (copyStaHtCapab conf elems alloc s).1.supportedRates = s.supportedRates := by
  unfold copyStaHtCapab
  split
  · exact ⟨rfl, rfl, rfl⟩
  split
  · exact ⟨rfl, rfl, rfl⟩
  · split <;> exact ⟨rfl, rfl, rfl⟩

theorem copyStaHtCapab_success {elems : Elems} {alloc : Bool}
    (h : (copyStaHtCapab conf elems alloc s).2 = .success) :
    (copyStaHtCapab conf elems alloc s).1 =
      { s with
        ht := (htIn conf elems).isSome
        htCapabilities := (htIn conf elems).map (·.take htCapabilitiesSize) } := by
  unfold copyStaHtCapab htIn at *
  cases hcap : elems.htCapabilities with
  | none => simp
  | some htCapab =>
    simp only [hcap] at h ⊢
    by_cases hoff : htCapab.length < htCapabilitiesSize ∨ conf.disable11n
    · simp only [if_pos hoff]
      rcases hoff with hshort | hoff
      · simp [hshort]
      · simp [hoff]
    simp only [if_neg hoff] at h ⊢
    obtain ⟨hfit, hon⟩ : htCapabilitiesSize ≤ htCapab.length ∧ conf.disable11n = false := by
      simpa using hoff
    split at h
    · simp at h
    · rw [if_neg ‹_›]
      simp [hfit, hon]

theorem checkAssoc_keeps (conf : BssConfig) (f : AssocFrame) (ans : AssocAnswers) (s : Sta) :
    (checkAssoc c conf f ans s).1.set = s.set ∧ (checkAssoc c conf f ans s).1.nonerp = s.nonerp := by
  have hies : (checkAssocIes c conf f.ies ans s).1.set = s.set ∧
      (checkAssocIes c conf f.ies ans s).1.nonerp = s.nonerp := by
    unfold checkAssocIes
    split
    · exact ⟨rfl, rfl⟩
    case h_2 elems _ =>
      have hrates := copySuppRates_keeps elems s
      have hht := copyStaHtCapab_keeps conf elems ans.alloc (copySuppRates elems s).1
      have hboth := And.intro (hht.1.trans hrates.1) (hht.2.1.trans hrates.2)
      split
      · exact ⟨rfl, rfl⟩
      simp only []
      split
      · exact hrates
      split
      · exact hboth
      · split <;> exact hboth
  unfold checkAssoc
  split
  · exact ⟨rfl, rfl⟩
  split
  · exact ⟨rfl, rfl⟩
  simp only []
  split
  · exact hies
  · split <;> exact hies

structure InLine (conf : BssConfig) (f : AssocFrame) (s : Sta) : Prop where
  rates : s.supportedRates = ratesOf f
  ht : s.ht = (htOf conf f).isSome
  htCapabilities : s.htCapabilities = (htOf conf f).map (·.take htCapabilitiesSize)

theorem checkAssocIes_success {f : AssocFrame} {ans : AssocAnswers}
    (h : (checkAssocIes c conf f.ies ans s).2 = .success) :
    InLine conf f (checkAssocIes c conf f.ies ans s).1 := by
  unfold checkAssocIes at h ⊢
  cases helems : ieee80211ParseElems f.ies with
  | none => simp [helems] at h
  | some elems =>
    simp only [helems] at h ⊢
    by_cases hssid : elems.ssid ≠ some conf.ssid
    · simp [if_pos hssid] at h
    rw [if_neg hssid] at h ⊢
    by_cases hrates : (copySuppRates elems s).2 ≠ .success
    · rw [if_pos hrates] at h
      exact absurd h hrates
    rw [if_neg hrates] at h ⊢
    by_cases hht : (copyStaHtCapab conf elems ans.alloc (copySuppRates elems s).1).2 ≠ .success
    · rw [if_pos hht] at h
      exact absurd h hht
    rw [if_neg hht] at h ⊢
    have hcopied := copyStaHtCapab_success (not_not.mp hht)
    have hcopiedRates := copySuppRates_success (not_not.mp hrates)
    split at h
    · simp at h
    rw [if_neg ‹_›, hcopied]
    have helemsOf : elemsOf f = elems := by simp [elemsOf, helems]
    constructor
    · simp only [ratesOf, helemsOf, hcopiedRates]
    · simp only [htOf, helemsOf]
    · simp only [htOf, helemsOf]

theorem checkAssoc_success {f : AssocFrame} {ans : AssocAnswers}
    (h : (checkAssoc c conf f ans s).2 = .success) : InLine conf f (checkAssoc c conf f ans s).1 := by
  unfold checkAssoc at h ⊢
  split at h
  · simp at h
  rw [if_neg ‹_›]
  split at h
  · simp at h
  rw [if_neg ‹_›]
  by_cases hies : (checkAssocIes c conf f.ies ans s).2 ≠ .success
  · simp only [if_pos hies] at h
    exact absurd h hies
  simp only [if_neg hies] at h ⊢
  split at h
  · simp at h
  · rw [if_neg ‹_›]
    exact checkAssocIes_success (not_not.mp hies)

theorem htCapabilitiesInfo_take (htCapab : Octets) :
    htCapabilitiesInfo (htCapab.take htCapabilitiesSize) = htCapabilitiesInfo htCapab := by
  simp [htCapabilitiesInfo, htCapabilitiesSize, List.getD_eq_getElem?_getD]

theorem InLine.lacks {hapd : ℕ} {f : AssocFrame} (h : InLine (c.bss hapd) f s)
    (hmode : c.mode ≠ .g → s.nonerp = false) (k : Lack) : lacksAs c.mode f s k = lacksOf c hapd f k := by
  cases k with
  | noShortSlotTime => rfl
  | noShortPreamble => rfl
  | nonErp =>
    by_cases hg : c.mode = .g
    · simp [lacksAs, lacksOf, checkRates, h.rates, hg]
    · simp [lacksAs, lacksOf, checkRates, hg, hmode hg]
  | noHt => cases hht : htOf (c.bss hapd) f <;> simp [lacksAs, lacksOf, h.ht, h.htCapabilities, hht]
  | htNoGf | ht20mhz =>
    cases hht : htOf (c.bss hapd) f <;>
      simp [lacksAs, lacksOf, h.ht, h.htCapabilities, hht, htCapabilitiesInfo_take]

theorem updateHtState_tuned : Tuned c (updateHtState c i sta) := hostapdHtOperationUpdate_tuned

theorem assocOk_tuned (f : AssocFrame) : Tuned c (assocOk c i sta f) := by
  unfold assocOk
  exact updateHtState_tuned

theorem assocOk_nonerp (f : AssocFrame) (hmode : c.mode ≠ .g)
    (hnonerp : (i.mem sta).nonerp = false) : ((assocOk c i sta f).mem sta).nonerp = false := by
  unfold assocOk
  simp only [mem_modify, mem_updateHtState c.mode f, mem_note]
  simp [checkRates, hmode, hnonerp]

section Accepted

variable {hapd : ℕ} {f : AssocFrame} {ans : AssocAnswers}

theorem mem_stas_of_accepted (h : accepted c i hapd f ans) : ⟨hapd, f.sa⟩ ∈ i.stas := by
  unfold accepted assocStatus at h
  split at h
  · simp at h
  case isFalse hno => exact not_not.mp (not_or.mp hno).1

theorem checkAssoc_of_accepted (h : accepted c i hapd f ans) :
    (checkAssoc c (c.bss hapd) f ans (i.mem ⟨hapd, f.sa⟩)).2 = .success := by
  unfold accepted assocStatus at h
  split at h
  · simp at h
  · exact Option.some.inj h

-- The station before the capabilities of the request are counted
def checked (c : Config) (i : Iface) (hapd : ℕ) (f : AssocFrame) (ans : AssocAnswers) : Iface :=
  i.modify ⟨hapd, f.sa⟩ fun s => (checkAssoc c (c.bss hapd) f ans s).1

theorem handleAssoc_of_accepted (h : accepted c i hapd f ans) :
    handleAssoc c i hapd f ans = assocOk c (checked c i hapd f ans) ⟨hapd, f.sa⟩ f := by
  have hstatus : assocStatus c i hapd f ans = some .success := h
  simp [handleAssoc, hstatus, checked]

theorem handleAssoc_of_not_accepted (h : ¬ accepted c i hapd f ans) :
    handleAssoc c i hapd f ans = i ∨ handleAssoc c i hapd f ans = checked c i hapd f ans := by
  unfold handleAssoc
  cases hstatus : assocStatus c i hapd f ans with
  | none => exact Or.inl rfl
  | some resp =>
    have hresp : resp ≠ .success := fun heq => h (hstatus.trans (congrArg some heq))
    exact Or.inr (if_neg hresp)

theorem touched_checked : Touched ⟨hapd, f.sa⟩ i (checked c i hapd f ans) :=
  touched_modify _ fun s => (checkAssoc_keeps (c.bss hapd) f ans s).1

theorem checked_set (a : StaRef) : ((checked c i hapd f ans).mem a).set = (i.mem a).set :=
  set_modify _ (fun s => (checkAssoc_keeps (c.bss hapd) f ans s).1) a

theorem handleAssoc_set (h : accepted c i hapd f ans)
    (hmode : c.mode ≠ .g → (i.mem ⟨hapd, f.sa⟩).nonerp = false) (k : Lack) :
    ((handleAssoc c i hapd f ans).mem ⟨hapd, f.sa⟩).set k =
      ((i.mem ⟨hapd, f.sa⟩).set k || lacksOf c hapd f k) := by
  have hkeeps := checkAssoc_keeps (c := c) (c.bss hapd) f ans (i.mem ⟨hapd, f.sa⟩)
  have hline := checkAssoc_success (checkAssoc_of_accepted h)
  have hlacks := hline.lacks (fun hg => hkeeps.2.trans (hmode hg)) k
  rw [handleAssoc_of_accepted h, assocOk_set]
  simp only [checked, mem_modify, hkeeps.1, hlacks]

end Accepted

-- What holds of an interface whatever happened: no station is in its tables twice, the counters are
-- the numbers of the bits, and every station has the bits for what it lacks.
structure Kept (c : Config) (w : World) : Prop where
  nodup : w.iface.stas.Nodup
  counted : Counted w.iface
  tuned : Tuned c w.iface
  nonerp : c.mode ≠ .g → ∀ sta, (w.iface.mem sta).nonerp = false
  covers : ∀ sta ∈ w.iface.stas, ∀ k, w.lacks c sta k → (w.iface.mem sta).set k

-- Every station has the bits for what it lacks, and no others.
def Exact (c : Config) (w : World) : Prop :=
  ∀ sta ∈ w.iface.stas, ∀ k, (w.iface.mem sta).set k = w.lacks c sta k

theorem Kept.follows (h : Kept c w) (hexact : Exact c w) : Follows c w := by
  have hcounts (k : Lack) : w.iface.num k = w.iface.stas.countP fun sta => w.lacks c sta k := by
    rw [h.counted k]
    exact congrArg Nat.cast (List.countP_congr fun sta hsta => by rw [hexact sta hsta k])
  refine ⟨hcounts, fun hn hfixed => (h.tuned hn hfixed).trans ?_⟩
  rw [hcounts .noHt, Nat.cast_ne_zero, ← Nat.pos_iff_ne_zero, List.countP_pos_iff]

theorem Follows.exact (h : Follows c w) (hkept : Kept c w) : Exact c w := by
  intro sta hsta k
  have heq : w.iface.stas.countP (fun sta => (w.iface.mem sta).set k) =
      w.iface.stas.countP fun sta => w.lacks c sta k := by
    have := (hkept.counted k).symm.trans (h.counts k)
    exact_mod_cast this
  exact countP_eq_imp (fun a ha => hkept.covers a ha k) heq hsta

theorem mem_release (k : Lack) :
    (i.release sta k).mem sta =
      { i.mem sta with set := fun k' => (i.mem sta).set k' && decide (k' ≠ k) } := by
  by_cases hk : (i.mem sta).set k = true
  · rw [Iface.release, if_pos hk]
    have hset : Function.update (i.mem sta).set k false =
        fun k' => (i.mem sta).set k' && decide (k' ≠ k) := by
      funext k'
      by_cases hkk : k' = k
      · simp [hkk]
      · simp [hkk]
    simp [Iface.setBit, hset]
  · rw [Iface.release, if_neg hk]
    have hset : (fun k' => (i.mem sta).set k' && decide (k' ≠ k)) = (i.mem sta).set := by
      funext k'
      by_cases hkk : k' = k
      · simp [hkk, hk]
      · simp [hkk]
    rw [hset]

theorem touched_apFreeSta (c : Config) (i : Iface) (sta : StaRef) :
    Touched sta { i with stas := i.stas.erase sta } (apFreeSta c i sta) := by
  unfold apFreeSta
  refine Touched.trans ?_ touched_hostapdHtOperationUpdate
  simp only [List.foldl_cons, List.foldl_nil]
  exact (((((touched_release _).trans (touched_release _)).trans (touched_release _)).trans
    (touched_release _)).trans (touched_release _)).trans (touched_release _)

theorem apFreeSta_set (k : Lack) : ((apFreeSta c i sta).mem sta).set k = false := by
  unfold apFreeSta
  simp only [List.foldl_cons, List.foldl_nil, mem_hostapdHtOperationUpdate, mem_release]
  cases k <;> simp

theorem apFreeSta_nonerp (a : StaRef) :
    ((apFreeSta c i sta).mem a).nonerp = (i.mem a).nonerp := by
  by_cases ha : a = sta
  · subst ha
    unfold apFreeSta
    simp only [List.foldl_cons, List.foldl_nil, mem_hostapdHtOperationUpdate, mem_release]
  · rw [(touched_apFreeSta c i sta).other a ha]

theorem apFreeSta_tuned : Tuned c (apFreeSta c i sta) := hostapdHtOperationUpdate_tuned

theorem Counted.apFreeSta (h : Counted i) (hnodup : i.stas.Nodup) (hsta : sta ∈ i.stas) :
    Counted (apFreeSta c i sta) := by
  intro k
  have htouched := touched_apFreeSta c i sta
  have hrest : (i.stas.erase sta).countP (fun a => ((Protection.apFreeSta c i sta).mem a).set k) =
      (i.stas.erase sta).countP fun a => (i.mem a).set k :=
    List.countP_congr fun a ha => by
      rw [htouched.other a fun has => hnodup.not_mem_erase (has ▸ ha)]
  have hnum : (Protection.apFreeSta c i sta).num k = i.num k - ((i.mem sta).set k).toNat := by
    have := htouched.num k
    rw [apFreeSta_set] at this
    simpa using this
  rw [htouched.stas, hrest, hnum, countP_erase_mem hsta, h k]

inductive Effect (c : Config) (w : World) (sta : StaRef) : Event → World → Prop where
  | same {e : Event} {w' : World} (hsta : sta ∈ w.iface.stas)
      (hset : (w'.iface.mem sta).set = (w.iface.mem sta).set)
      (hlatest : w'.latest sta = w.latest sta) : Effect c w sta e w'
  | fresh {e : Event} {w' : World} (hset : ∀ k, (w'.iface.mem sta).set k = false)
      (hlatest : w'.latest sta = none) : Effect c w sta e w'
  | asked {hapd : ℕ} {f : AssocFrame} {ans : AssocAnswers} {w' : World} (href : sta = ⟨hapd, f.sa⟩)
      (hok : accepted c w.iface hapd f ans)
      (hset : ∀ k, (w'.iface.mem sta).set k = ((w.iface.mem sta).set k || lacksOf c hapd f k))
      (hlatest : w'.latest sta = some f) : Effect c w sta (.assoc hapd f ans) w'

theorem handleAssoc_stas (hapd : ℕ) (f : AssocFrame) (ans : AssocAnswers) :
    (handleAssoc c i hapd f ans).stas = i.stas := by
  by_cases hok : accepted c i hapd f ans
  · rw [handleAssoc_of_accepted hok, (touched_assocOk f).stas]
    rfl
  rcases handleAssoc_of_not_accepted hok with heq | heq
  · rw [heq]
  · rw [heq]
    rfl

theorem exec_effect (h : Kept c w) (e : Event) (hsta : sta ∈ (exec c w e).iface.stas) :
    Effect c w sta e (exec c w e) := by
  cases e with
  | addSta a room =>
    simp only [exec, apStaAdd] at hsta ⊢
    by_cases hin : a ∈ w.iface.stas
    · simp only [hin, true_or, if_true] at hsta ⊢
      exact .same hsta rfl rfl
    by_cases hroom : room
    · simp only [hin, hroom, false_or, Bool.not_true, Bool.false_eq_true, if_false] at hsta ⊢
      rcases List.mem_cons.mp hsta with heq | hold
      · subst heq
        exact .fresh (fun k => by simp) (by simp)
      · have hne : sta ≠ a := fun heq => hin (heq ▸ hold)
        exact .same hold (by simp [mem_modify_ne _ hne]) (by simp [hne])
    · simp only [hroom, Bool.not_false, or_true, if_true, hin, if_false] at hsta ⊢
      have hne : sta ≠ a := fun heq => hin (heq ▸ hsta)
      exact .same hsta rfl (by simp [hne])
  | setAuth a auth =>
    exact .same hsta (set_modify (fun s => { s with auth := auth }) (fun _ => rfl) sta) rfl
  | assoc hapd f ans =>
    have hin : sta ∈ w.iface.stas := handleAssoc_stas (c := c) hapd f ans ▸ hsta
    by_cases hok : accepted c w.iface hapd f ans
    · by_cases href : sta = ⟨hapd, f.sa⟩
      · subst href
        refine .asked rfl hok (handleAssoc_set hok fun hg => h.nonerp hg _) ?_
        simp [exec, hok]
      refine .same hin ?_ (by simp [exec, hok, href])
      simp only [exec]
      rw [handleAssoc_of_accepted hok, (touched_assocOk f).other _ href,
        (touched_checked).other _ href]
    · refine .same hin ?_ (by simp [exec, hok])
      simp only [exec]
      rcases handleAssoc_of_not_accepted hok with heq | heq
      · rw [heq]
      · rw [heq, checked_set]
  | freeSta a =>
    simp only [exec] at hsta ⊢
    by_cases hin : a ∈ w.iface.stas
    · rw [if_pos hin] at hsta ⊢
      have htouched := touched_apFreeSta c w.iface a
      have herase : sta ∈ w.iface.stas.erase a := by rwa [htouched.stas] at hsta
      have hne : sta ≠ a := fun heq => h.nodup.not_mem_erase (heq ▸ herase)
      exact .same (List.mem_of_mem_erase herase) (by rw [htouched.other _ hne]) rfl
    · rw [if_neg hin] at hsta ⊢
      exact .same hsta rfl rfl
  | olbcHt seen =>
    simp only [exec, stas_hostapdHtOperationUpdate] at hsta
    exact .same hsta (by simp only [exec, mem_hostapdHtOperationUpdate]) rfl

theorem Kept.counted_exec (h : Kept c w) (e : Event) : Counted (exec c w e).iface := by
  cases e with
  | addSta a room =>
    simp only [exec, apStaAdd]
    split
    · exact h.counted
    case isFalse hnew =>
      have hin : a ∉ w.iface.stas := fun hin => hnew (Or.inl hin)
      intro k
      have hrest : w.iface.stas.countP
          (fun b => ((w.iface.modify a fun _ => {}).mem b).set k) =
          w.iface.stas.countP fun b => (w.iface.mem b).set k :=
        List.countP_congr fun b hb => by
          rw [mem_modify_ne _ (ne_of_mem_of_not_mem hb hin)]
      have hnum : (w.iface.modify a fun _ => {}).num k = w.iface.num k := rfl
      simp [hrest, hnum, h.counted k]
  | setAuth a auth =>
    exact h.counted.of_set rfl rfl (set_modify (fun s => { s with auth := auth }) fun _ => rfl)
  | assoc hapd f ans =>
    simp only [exec]
    by_cases hok : accepted c w.iface hapd f ans
    · rw [handleAssoc_of_accepted hok]
      exact h.counted.touched h.nodup (mem_stas_of_accepted hok)
        ((touched_checked).trans (touched_assocOk f))
    rcases handleAssoc_of_not_accepted hok with heq | heq
    · rw [heq]
      exact h.counted
    · rw [heq]
      exact h.counted.of_set rfl rfl checked_set
  | freeSta a =>
    simp only [exec]
    split
    case isTrue hin => exact h.counted.apFreeSta h.nodup hin
    case isFalse => exact h.counted
  | olbcHt seen =>
    exact h.counted.of_set stas_hostapdHtOperationUpdate num_hostapdHtOperationUpdate
      fun a => by simp only [exec, mem_hostapdHtOperationUpdate]

theorem Kept.nodup_exec (h : Kept c w) (e : Event) : (exec c w e).iface.stas.Nodup := by
  cases e with
  | addSta a room =>
    simp only [exec, apStaAdd]
    split
    · exact h.nodup
    case isFalse hnew => exact List.nodup_cons.mpr ⟨fun hin => hnew (Or.inl hin), h.nodup⟩
  | setAuth a auth => exact h.nodup
  | assoc hapd f ans => exact (handleAssoc_stas (c := c) hapd f ans).symm ▸ h.nodup
  | freeSta a =>
    simp only [exec]
    split
    · rw [(touched_apFreeSta c w.iface a).stas]
      exact h.nodup.erase a
    · exact h.nodup
  | olbcHt seen =>
    simp only [exec, stas_hostapdHtOperationUpdate]
    exact h.nodup

theorem Kept.tuned_exec (h : Kept c w) (e : Event) : Tuned c (exec c w e).iface := by
  cases e with
  | addSta a room =>
    simp only [exec, apStaAdd]
    split
    · exact h.tuned
    · exact h.tuned
  | setAuth a auth => exact h.tuned
  | assoc hapd f ans =>
    simp only [exec]
    by_cases hok : accepted c w.iface hapd f ans
    · rw [handleAssoc_of_accepted hok]
      exact assocOk_tuned f
    rcases handleAssoc_of_not_accepted hok with heq | heq
    · rw [heq]
      exact h.tuned
    · rw [heq]
      exact h.tuned
  | freeSta a =>
    simp only [exec]
    split
    · exact apFreeSta_tuned
    · exact h.tuned
  | olbcHt seen => exact hostapdHtOperationUpdate_tuned

theorem Kept.nonerp_exec (h : Kept c w) (e : Event) (hmode : c.mode ≠ .g) (sta : StaRef) :
    ((exec c w e).iface.mem sta).nonerp = false := by
  have hold := h.nonerp hmode
  cases e with
  | addSta a room =>
    simp only [exec, apStaAdd]
    split
    · exact hold sta
    by_cases hne : sta = a
    · subst hne
      simp
    · simpa [mem_modify_ne _ hne] using hold sta
  | setAuth a auth =>
    by_cases hne : sta = a
    · subst hne
      simpa [exec] using hold sta
    · simpa [exec, mem_modify_ne _ hne] using hold sta
  | assoc hapd f ans =>
    have hchecked : ((checked c w.iface hapd f ans).mem sta).nonerp = false := by
      by_cases hne : sta = ⟨hapd, f.sa⟩
      · subst hne
        simp only [checked, mem_modify, (checkAssoc_keeps (c := c) (c.bss hapd) f ans _).2, hold]
      · rw [(touched_checked).other _ hne, hold]
    simp only [exec]
    by_cases hok : accepted c w.iface hapd f ans
    · rw [handleAssoc_of_accepted hok]
      by_cases hne : sta = ⟨hapd, f.sa⟩
      · subst hne
        exact assocOk_nonerp f hmode hchecked
      · rw [(touched_assocOk f).other _ hne, hchecked]
    · rcases handleAssoc_of_not_accepted hok with heq | heq
      · rw [heq, hold]
      · rw [heq, hchecked]
  | freeSta a =>
    simp only [exec]
    split
    · rw [apFreeSta_nonerp, hold]
    · exact hold sta
  | olbcHt seen => simpa only [exec, mem_hostapdHtOperationUpdate] using hold sta

theorem World.lacks_of_latest {w' : World} (h : w'.latest sta = w.latest sta) (k : Lack) :
    w'.lacks c sta k = w.lacks c sta k := by
  simp only [World.lacks, h]

theorem World.lacks_of_some {f : AssocFrame} (h : w.latest sta = some f) (k : Lack) :
    w.lacks c sta k = lacksOf c sta.hapd f k := by
  simp only [World.lacks, h, Option.any_some]

theorem Kept.exec (h : Kept c w) (e : Event) : Kept c (exec c w e) where
  nodup := h.nodup_exec e
  counted := h.counted_exec e
  tuned := h.tuned_exec e
  nonerp := h.nonerp_exec e
  covers sta hsta k hlacks := by
    cases exec_effect h e hsta with
    | same hold hset hlatest =>
      rw [hset]
      exact h.covers sta hold k (World.lacks_of_latest hlatest k ▸ hlacks)
    | fresh hset hlatest => simp [World.lacks, hlatest] at hlacks
    | asked href hok hset hlatest =>
      rw [World.lacks_of_some hlatest, href] at hlacks
      simp [hset, hlacks]

-- A run in which no station gains anything keeps the bits exact, and no other does.
theorem exact_exec_iff (h : Kept c w) (hexact : Exact c w) (e : Event) :
    Exact c (Protection.exec c w e) ↔ GainsNothing c w e := by
  constructor
  · intro hafter
    cases e with
    | assoc hapd f ans =>
      intro hok k hlacks
      have hin := mem_stas_of_accepted hok
      have hin' : ⟨hapd, f.sa⟩ ∈ (Protection.exec c w (.assoc hapd f ans)).iface.stas := by
        simp only [Protection.exec, handleAssoc_stas]
        exact hin
      have hset := handleAssoc_set hok (fun hg => h.nonerp hg _) k
      have hbits : (((handleAssoc c w.iface hapd f ans).mem ⟨hapd, f.sa⟩).set k) =
          lacksOf c hapd f k := by
        have := hafter _ hin' k
        simpa [Protection.exec, World.lacks, hok] using this
      rw [hexact _ hin, hlacks, hbits] at hset
      simpa using hset
    | _ => exact trivial
  · intro hgains sta hsta k
    cases exec_effect h e hsta with
    | same hold hset hlatest => rw [hset, World.lacks_of_latest hlatest, hexact sta hold k]
    | fresh hset hlatest => simp [World.lacks, hlatest, hset]
    | asked href hok hset hlatest =>
      rw [World.lacks_of_some hlatest, hset, href]
      have hin := mem_stas_of_accepted hok
      have hold := hexact _ hin k
      have hmore := hgains hok k
      rw [hold]
      cases hlacks : w.lacks c ⟨_, _⟩ k <;> simp_all

theorem follows_prefixes_iff (h : Kept c w) (hexact : Exact c w) (events : List Event) :
    (∀ pre, pre <+: events → Follows c (pre.foldl (Protection.exec c) w)) ↔
      Allowed (Protection.exec c) (GainsNothing c) w events := by
  induction events generalizing w with
  | nil => simp [Allowed, List.prefix_nil, h.follows hexact]
  | cons e events ih =>
    have hnext := h.exec e
    constructor
    · intro hall
      have hfollows : Follows c (Protection.exec c w e) := hall [e] ⟨events, rfl⟩
      have hexact' := hfollows.exact hnext
      refine ⟨(exact_exec_iff h hexact e).mp hexact', (ih hnext hexact').mp ?_⟩
      intro pre hpre
      exact hall (e :: pre) (List.cons_prefix_cons.mpr ⟨rfl, hpre⟩)
    · rintro ⟨hgains, hallowed⟩ pre hpre
      have hexact' := (exact_exec_iff h hexact e).mpr hgains
      cases pre with
      | nil => exact h.follows hexact
      | cons e' pre =>
        obtain ⟨rfl, hrest⟩ := List.cons_prefix_cons.mp hpre
        exact (ih hnext hexact').mpr hallowed pre hrest

theorem kept_init : Kept c {} where
  nodup := List.nodup_nil
  counted _ := rfl
  tuned _ _ := by decide
  nonerp _ _ := rfl
  covers _ hsta := by simp at hsta

end Lemmas

-- In a run the counters are right after every event, and the operation mode is mixed exactly while a
-- station without HT is there, if and only if no station that is associated anew has gained what it
-- lacked.
theorem protection_follows (c : Config) (events : List Event) :
    (∀ pre, pre <+: events → Follows c (pre.foldl (exec c) {})) ↔
      Allowed (exec c) (GainsNothing c) {} events :=
  follows_prefixes_iff kept_init (fun _ hsta => by simp at hsta) events

def sampleConfig : Config := { bss := fun _ => { ssid := [] }, mode := .g, ieee80211n := true }

-- A request of a station of 802.11b, and one with everything that is counted
def samplePlain : AssocFrame := { sa := 1, ies := [0, 0, 1, 1, 2] }

def sampleFull : AssocFrame :=
  { sa := 1, reassoc := true, capabInfo := 0x420
    ies := [0, 0, 1, 2, 2, 0x6c, 45, 26, 0x12, 0] ++ List.replicate 24 0 }

def sampleEvents : List Event :=
  [.addSta ⟨0, 1⟩ true, .setAuth ⟨0, 1⟩ true, .assoc 0 samplePlain {}, .assoc 0 sampleFull {}]

def sampleWorld : World := sampleEvents.foldl (exec sampleConfig) {}

-- The station reassociates with HT. It is still counted as one without, and the operation mode stays
-- mixed.
theorem protection_stale :
    sampleWorld.iface.stas = [⟨0, 1⟩] ∧ sampleWorld.latest ⟨0, 1⟩ = some sampleFull ∧
      (sampleWorld.iface.stas.countP fun sta => sampleWorld.lacks sampleConfig sta .noHt) = 0 ∧
      sampleWorld.iface.num .noHt = 1 ∧
      sampleWorld.iface.htOpMode &&& opModeMask = opModeMixed ∧ ¬ Follows sampleConfig sampleWorld := by
  refine ⟨rfl, rfl, rfl, rfl, rfl, fun h => ?_⟩
  exact absurd (h.counts .noHt) (by decide)

end WpaSupplicant.Ap.Protection
