import WpaSupplicant.GasExchange.Client

namespace WpaSupplicant.GasQuery

open Lib.Octets GasExchange

section Layout

variable {data : Octets} {pos : ℕ} {fragId : UInt8} {more : Bool} {r : Response}

def IsAdvProto (adv : Octets) : Prop :=
  ∃ body : Octets, body.length < 256 ∧ adv = eidAdvProto :: UInt8.ofNat body.length :: body

def Fields (delay : ℕ) (adv resp fields : Octets) : Prop :=
  delay < 65536 ∧ IsAdvProto adv ∧ resp.length < 65536 ∧
    ∃ extra, fields = putLE16 delay ++ adv ++ putLE16 resp.length ++ resp ++ extra

def PutsOff (dialogToken : UInt8) (adv frame : Octets) : Prop :=
  ∃ delay resp fields, delay ≠ 0 ∧ frame = gasInitialResp :: dialogToken :: 0 :: 0 :: fields ∧
    Fields delay adv resp fields

def IsFragment (dialogToken : UInt8) (adv : Octets) (fragId : ℕ) (more : Bool) (resp frame : Octets) : Prop :=
  ∃ fields, fragId < 128 ∧
    frame = gasComebackResp :: dialogToken :: 0 :: 0 :: UInt8.ofNat (fragId + if more then 128 else 0) :: fields ∧
    Fields 0 adv resp fields

theorem drop_two (pos : ℕ) (h : pos + 2 ≤ data.length) :
    data.drop pos = data.getD pos 0 :: data.getD (pos + 1) 0 :: data.drop (pos + 2) := by
  have hfirst : data.getD pos 0 = data[pos] := by
    rw [List.getD_eq_getElem?_getD, List.getElem?_eq_getElem (by omega)]
    rfl
  have hsecond : data.getD (pos + 1) 0 = data[pos + 1] := by
    rw [List.getD_eq_getElem?_getD, List.getElem?_eq_getElem (by omega)]
    rfl
  rw [hfirst, hsecond, List.drop_eq_getElem_cons (by omega), List.drop_eq_getElem_cons (by omega)]

theorem putLE16_getLE16 (data : Octets) (pos : ℕ) :
    putLE16 (getLE16 data pos) = [data.getD pos 0, data.getD (pos + 1) 0] := by
  have hlow : UInt8.ofNat (getLE16 data pos) = data.getD pos 0 := by
    refine UInt8.toNat_inj.mp ?_
    have := (data.getD pos 0).toNat_lt
    rw [UInt8.toNat_ofNat', getLE16]
    omega
  have hhigh : getLE16 data pos / 256 = (data.getD (pos + 1) 0).toNat := by
    have := (data.getD pos 0).toNat_lt
    rw [getLE16]
    omega
  rw [putLE16, hlow, hhigh, UInt8.ofNat_toNat]

theorem getLE16_lt (data : Octets) (pos : ℕ) : getLE16 data pos < 65536 := by
  have hlow := (data.getD pos 0).toNat_lt
  have hhigh := (data.getD (pos + 1) 0).toNat_lt
  rw [getLE16]
  omega

theorem fields_split {n m : ℕ} (h : pos + 2 + n + 2 + m ≤ data.length) :
    data.drop pos = [data.getD pos 0, data.getD (pos + 1) 0] ++ (data.drop (pos + 2)).take n ++
      [data.getD (pos + 2 + n) 0, data.getD (pos + 2 + n + 1) 0] ++ (data.drop (pos + 2 + n + 2)).take m ++
      data.drop (pos + 2 + n + 2 + m) := by
  have hsplit (p k : ℕ) : data.drop p = (data.drop p).take k ++ data.drop (p + k) := by
    rw [← List.drop_drop, List.take_append_drop]
  have hfirst : data.drop pos = [data.getD pos 0, data.getD (pos + 1) 0] ++ data.drop (pos + 2) :=
    drop_two _ (by omega)
  have hsecond : data.drop (pos + 2 + n) =
      [data.getD (pos + 2 + n) 0, data.getD (pos + 2 + n + 1) 0] ++ data.drop (pos + 2 + n + 2) := drop_two _ (by omega)
  calc data.drop pos
      = [data.getD pos 0, data.getD (pos + 1) 0] ++ data.drop (pos + 2) := hfirst
    _ = [data.getD pos 0, data.getD (pos + 1) 0] ++
          ((data.drop (pos + 2)).take n ++ ([data.getD (pos + 2 + n) 0, data.getD (pos + 2 + n + 1) 0] ++
            ((data.drop (pos + 2 + n + 2)).take m ++ data.drop (pos + 2 + n + 2 + m)))) := by
        rw [← hsplit (pos + 2 + n + 2) m, ← hsecond, ← hsplit]
    _ = _ := by simp only [List.append_assoc]

theorem fields_of_parseFields (h : parseFields data pos fragId more = some r) :
    r.fragId = fragId ∧ r.moreFrags = more ∧ Fields r.comebackDelay r.advProto r.resp (data.drop pos) := by
  unfold parseFields at h
  split at h
  · cases h
  rename_i hdelay
  dsimp only at h
  split at h
  · cases h
  rename_i hadv
  split at h
  · cases h
  rename_i heid
  split at h
  · cases h
  rename_i hlen
  split at h
  · cases h
  rename_i hresp
  cases h
  refine ⟨rfl, rfl, getLE16_lt data pos, ⟨(data.drop (pos + 2 + 2)).take (data.getD (pos + 2 + 1) 0).toNat, ?_, ?_⟩, ?_,
    data.drop (pos + 2 + (2 + (data.getD (pos + 2 + 1) 0).toNat) + 2 +
      getLE16 data (pos + 2 + (2 + (data.getD (pos + 2 + 1) 0).toNat))), ?_⟩
  · have hlt := (data.getD (pos + 2 + 1) 0).toNat_lt
    rw [List.length_take]
    omega
  · have hlength : ((data.drop (pos + 2 + 2)).take (data.getD (pos + 2 + 1) 0).toNat).length =
        (data.getD (pos + 2 + 1) 0).toNat := by
      rw [List.length_take, List.length_drop]
      omega
    rw [hlength, UInt8.ofNat_toNat, drop_two _ (by omega), not_not.mp heid, Nat.add_comm 2, List.take_succ_cons,
      List.take_succ_cons]
  · have hlt := getLE16_lt data (pos + 2 + (2 + (data.getD (pos + 2 + 1) 0).toNat))
    rw [List.length_take]
    omega
  · dsimp only
    have hlength : ((data.drop (pos + 2 + (2 + (data.getD (pos + 2 + 1) 0).toNat) + 2)).take
        (getLE16 data (pos + 2 + (2 + (data.getD (pos + 2 + 1) 0).toNat)))).length =
        getLE16 data (pos + 2 + (2 + (data.getD (pos + 2 + 1) 0).toNat)) := by
      rw [List.length_take, List.length_drop]
      omega
    rw [hlength, putLE16_getLE16, putLE16_getLE16]
    exact fields_split (by omega)

theorem fragId_split (b : UInt8) :
    (b &&& 0x7f).toNat < 128 ∧ b = UInt8.ofNat ((b &&& 0x7f).toNat + if (b &&& 0x80) ≠ 0 then 128 else 0) := by
  have hall : ∀ n < 128, ∀ high : Bool,
      (UInt8.ofNat (n + if high then 128 else 0) &&& 0x7f).toNat = n ∧
        ((UInt8.ofNat (n + if high then 128 else 0) &&& 0x80) ≠ 0 ↔ high = true) := by
    decide
  have hlt := b.toNat_lt
  have hoctet : b = UInt8.ofNat (b.toNat % 128 + if decide (128 ≤ b.toNat) then 128 else 0) := by
    refine UInt8.toNat_inj.mp ?_
    rw [UInt8.toNat_ofNat']
    by_cases hhigh : 128 ≤ b.toNat
    · simp only [hhigh, decide_true, if_true]
      omega
    · simp only [hhigh, decide_false, Bool.false_eq_true, if_false]
      omega
  obtain ⟨hid, hmore⟩ := hall (b.toNat % 128) (by omega) (decide (128 ≤ b.toNat))
  rw [← hoctet] at hid hmore
  refine ⟨by omega, ?_⟩
  simp only [hid, hmore]
  exact hoctet

theorem frame_split {action : UInt8} (hlen : ¬data.length < 4) (haction : data.getD 0 0 = action)
    (hstatus : getLE16 data 2 = statusSuccess) : data = action :: data.getD 1 0 :: 0 :: 0 :: data.drop 4 := by
  have hhead : data = data.getD 0 0 :: data.getD 1 0 :: data.drop 2 := drop_two 0 (by omega)
  have htail : data.drop 2 = data.getD 2 0 :: data.getD 3 0 :: data.drop 4 := drop_two _ (by omega)
  have hzero := putLE16_getLE16 data 2
  rw [hstatus] at hzero
  obtain ⟨hlow, hrest⟩ := List.cons.inj hzero
  obtain ⟨hhigh, -⟩ := List.cons.inj hrest
  rw [← hlow, ← hhigh] at htail
  rw [htail, haction] at hhead
  exact hhead

theorem fields_of_initial (hlen : ¬data.length < 4) (haction : data.getD 0 0 = gasInitialResp)
    (hstatus : getLE16 data 2 = statusSuccess) (hparse : parseResponse data = some r) :
    data = gasInitialResp :: data.getD 1 0 :: 0 :: 0 :: data.drop 4 ∧
      Fields r.comebackDelay r.advProto r.resp (data.drop 4) := by
  rw [parseResponse, haction, if_neg (by decide)] at hparse
  exact ⟨frame_split hlen haction hstatus, (fields_of_parseFields hparse).2.2⟩

theorem fragment_of_comeback (hlen : ¬data.length < 4) (haction : data.getD 0 0 = gasComebackResp)
    (hstatus : getLE16 data 2 = statusSuccess) (hparse : parseResponse data = some r) (hdelay : r.comebackDelay = 0) :
    r.fragId.toNat < 128 ∧ IsFragment (data.getD 1 0) r.advProto r.fragId.toNat r.moreFrags r.resp data := by
  rw [parseResponse, if_pos haction] at hparse
  split at hparse
  · cases hparse
  rename_i hroom
  obtain ⟨hid, hmore, hfields⟩ := fields_of_parseFields hparse
  obtain ⟨hlt, hoctet⟩ := fragId_split (data.getD 4 0)
  have hnext : data.drop 4 = data.getD 4 0 :: data.drop 5 := by
    rw [List.drop_eq_getElem_cons (by omega), List.getD_eq_getElem?_getD, List.getElem?_eq_getElem (by omega)]
    rfl
  have hframe := frame_split hlen haction hstatus
  rw [hnext] at hframe
  refine ⟨by rw [hid]; exact hlt, data.drop 5, by rw [hid]; exact hlt, ?_, hdelay ▸ hfields⟩
  rw [hid, hmore]
  simp only [decide_eq_true_eq]
  rw [← hoctet]
  exact hframe

end Layout

section Tracks

variable {κ : Type} {g : Gas κ} {q : Query κ}

structure Track (κ : Type) where
  addr : Addr
  dialogToken : UInt8
  cb : κ
  waitComeback : Bool
  advProto : Option Octets
  resp : Option Octets
  nextFragId : UInt8

def Query.track (q : Query κ) : Track κ where
  addr := q.addr
  dialogToken := q.dialogToken
  cb := q.cb
  waitComeback := q.waitComeback
  advProto := q.advProto
  resp := q.resp
  nextFragId := q.nextFragId

def Tracks (T : Track κ → Prop) (g : Gas κ) : Prop := ∀ q ∈ g.pending, T q.track

variable {T : Track κ → Prop}

theorem Tracks.set (h : Tracks T g) (hq : T q.track) : Tracks T (g.set q) := by
  intro q' hq'
  obtain ⟨r, hr, rfl⟩ := List.mem_map.mp hq'
  split
  · exact hq
  · exact h r hr

theorem Tracks.done (h : Tracks T g) (result : Result) : Tracks T (gasQueryDone g q result).1 := by
  intro q' hq'
  rw [gasQueryDone_pending] at hq'
  exact h q' (List.mem_of_mem_eraseP hq')

theorem serials_set : (g.set q).pending.map Query.serial = g.pending.map Query.serial := by
  rw [Gas.set, List.map_map]
  refine List.map_congr_left fun r _ => ?_
  rw [Function.comp_apply]
  split
  · rename_i hserial
    exact hserial.symm
  · rfl

theorem Tracks.setDone (h : Tracks T g) (hnodup : (g.pending.map Query.serial).Nodup) (result : Result) :
    Tracks T (gasQueryDone (g.set q) q result).1 := by
  intro q' hq'
  obtain ⟨g1, hkept, hends⟩ := gasQueryDone_ends (g.set q) q result
  have hgone : q.serial ∉ (gasQueryDone (g.set q) q result).1.pending.map Query.serial := by
    rw [hends.serials, hkept.serials, serials_set]
    exact hnodup.not_mem_erase
  have hne : q'.serial ≠ q.serial := fun hserial => hgone (hserial ▸ List.mem_map_of_mem hq')
  rw [gasQueryDone_pending] at hq'
  obtain ⟨r, hr, hset⟩ := List.mem_map.mp (List.mem_of_mem_eraseP hq')
  split at hset
  · exact absurd (congrArg Query.serial hset.symm) hne
  · exact hset ▸ h r hr

theorem Tracks.tx (h : Tracks T g) (hq : T q.track) (a : Answers) (req : Octets) :
    Tracks T (gasQueryTx a g q req).1 := by
  unfold gasQueryTx
  dsimp only
  split
  · exact Tracks.set (g := g.emit _) h hq
  · exact Tracks.set (g := g.emit _) h hq

theorem Tracks.comebackReq (h : Tracks T g) (hq : T q.track) (a : Answers) :
    Tracks T (gasQueryTxComebackReq a g q).1 := by
  unfold gasQueryTxComebackReq
  split
  · exact h.done _
  dsimp only
  split
  · exact (h.tx hq a _).done _
  · exact h.tx hq a _

theorem comebackReq_fails {a : Answers} {c : Callback κ} (h : (gasQueryTxComebackReq a g q).2 = some c) :
    c.result ≠ .success := by
  unfold gasQueryTxComebackReq at h
  split at h
  · cases h
    exact fun h => nomatch h
  dsimp only at h
  split at h
  · cases h
    exact fun h => nomatch h
  · cases h

variable {a : Answers} {r : Response} {c : Callback κ}

theorem Tracks.rxInitial (h : Tracks T g) (hnodup : (g.pending.map Query.serial).Nodup)
    (hoff : r.comebackDelay ≠ 0 → T { q.track with waitComeback := true, advProto := some r.advProto }) :
    Tracks T (gasQueryRxInitial a g q r).1 := by
  unfold gasQueryRxInitial
  split
  · exact h.done _
  dsimp only
  split
  · rename_i hdelay
    exact h.set (hoff hdelay)
  split
  · exact h.setDone hnodup _
  · exact h.setDone hnodup _

theorem rxInitial_success (h : (gasQueryRxInitial a g q r).2 = some c) (hsuccess : c.result = .success) :
    r.comebackDelay = 0 ∧ c.cb = q.cb ∧ c.dst = q.addr ∧ c.dialogToken = q.dialogToken ∧
      c.advProto = some r.advProto ∧ c.resp = some (q.resp.getD [] ++ r.resp) := by
  unfold gasQueryRxInitial at h
  split at h
  · cases h
    cases hsuccess
  dsimp only at h
  split at h
  · cases h
  rename_i hdelay
  split at h
  · cases h
    cases hsuccess
  · cases h
    exact ⟨not_not.mp hdelay, rfl, rfl, rfl, rfl, rfl⟩

-- A query goes on after a fragment that is in its turn and says that there are more.
theorem Tracks.rxComeback (h : Tracks T g) (hnodup : (g.pending.map Query.serial).Nodup) (hq : T q.track)
    (hmore : r.comebackDelay = 0 → q.advProto = some r.advProto → r.fragId = q.nextFragId → r.moreFrags = true →
      T { q.track with nextFragId := q.nextFragId + 1, resp := some (q.resp.getD [] ++ r.resp) }) :
    Tracks T (gasQueryRxComeback a g q r).1 := by
  unfold gasQueryRxComeback
  split
  · exact h.done _
  rename_i hadv
  split
  · split
    · exact h.done _
    · exact h.set hq
  rename_i hdelay
  split
  · exact h.done _
  rename_i hid
  dsimp only
  split
  · exact h.setDone hnodup _
  split
  · rename_i hflag
    have hnew := hmore (not_not.mp hdelay) (not_not.mp hadv) (not_not.mp hid) hflag
    exact (h.set hnew).comebackReq hnew a
  · exact h.setDone hnodup _

theorem rxComeback_success (h : (gasQueryRxComeback a g q r).2 = some c) (hsuccess : c.result = .success) :
    q.advProto = some r.advProto ∧ r.comebackDelay = 0 ∧ r.fragId = q.nextFragId ∧ r.moreFrags = false ∧
      c.cb = q.cb ∧ c.dst = q.addr ∧ c.dialogToken = q.dialogToken ∧ c.advProto = q.advProto ∧
      c.resp = some (q.resp.getD [] ++ r.resp) := by
  unfold gasQueryRxComeback at h
  split at h
  · cases h
    cases hsuccess
  rename_i hadv
  split at h
  · split at h
    · cases h
      cases hsuccess
    · cases h
  rename_i hdelay
  split at h
  · cases h
    cases hsuccess
  rename_i hid
  dsimp only at h
  split at h
  · cases h
    cases hsuccess
  split at h
  · exact absurd hsuccess (comebackReq_fails h)
  rename_i hflag
  cases h
  exact ⟨not_not.mp hadv, not_not.mp hdelay, not_not.mp hid, Bool.eq_false_iff.mpr hflag, rfl, rfl, rfl, rfl, rfl⟩

variable {sa : Addr} {data : Octets}

structure Accepted (q : Query κ) (sa : Addr) (data : Octets) (action : UInt8) (r : Response) : Prop where
  addr : q.addr = sa
  dialogToken : data.getD 1 0 = q.dialogToken
  length : ¬data.length < 4
  action : data.getD 0 0 = action
  status : getLE16 data 2 = statusSuccess
  parse : parseResponse data = some r

inductive Received (a : Answers) (g : Gas κ) (sa : Addr) (data : Octets) : Gas κ × Option (Callback κ) → Prop where
  | dropped : Received a g sa data (g, none)
  | failed (q : Query κ) (hq : q ∈ g.pending) :
      Received a g sa data
        (gasQueryDone (g.set { q with statusCode := getLE16 data 2 }) { q with statusCode := getLE16 data 2 } .failure)
  | malformed (q : Query κ) (hq : q ∈ g.pending) :
      Received a g sa data (g.set { q with statusCode := getLE16 data 2 }, none)
  | comeback (q : Query κ) (r : Response) (hq : q ∈ g.pending) (hwait : q.waitComeback = true)
      (haccepted : Accepted q sa data gasComebackResp r) :
      Received a g sa data
        (gasQueryRxComeback a (g.set { q with statusCode := getLE16 data 2 }) { q with statusCode := getLE16 data 2 } r)
  | initial (q : Query κ) (r : Response) (hq : q ∈ g.pending) (hwait : q.waitComeback = false)
      (haccepted : Accepted q sa data gasInitialResp r) :
      Received a g sa data
        (gasQueryRxInitial a (g.set { q with statusCode := getLE16 data 2 }) { q with statusCode := getLE16 data 2 } r)

theorem gasQueryRx_received (a : Answers) (g : Gas κ) (sa : Addr) (data : Octets) :
    Received a g sa data (gasQueryRx a g sa data).2 := by
  unfold gasQueryRx
  dsimp only
  split
  · exact .dropped
  rename_i hlen
  split
  · exact .dropped
  rename_i haction
  cases hget : gasQueryGetPending g sa (data.getD 1 0) with
  | none => exact .dropped
  | some q =>
    obtain ⟨hq, hkey⟩ := gasQueryGetPending_some hget
    obtain ⟨haddr, htoken⟩ := Prod.mk.inj hkey
    dsimp only
    split
    · exact .dropped
    rename_i hinitial
    split
    · exact .dropped
    rename_i hcomeback
    split
    · exact .failed q hq
    rename_i hstatus
    cases hparse : parseResponse data with
    | none => exact .malformed q hq
    | some r =>
      dsimp only
      by_cases hback : data.getD 0 0 = gasComebackResp
      · have hwait : q.waitComeback = true := by
          by_contra hnot
          exact hcomeback ⟨hnot, hback⟩
        rw [if_pos hback]
        exact .comeback q r hq hwait ⟨haddr, htoken.symm, hlen, hback, not_not.mp hstatus, hparse⟩
      · have hinit : data.getD 0 0 = gasInitialResp := by
          by_contra hnot
          exact haction ⟨hnot, hback⟩
        have hwait : q.waitComeback = false := by
          by_contra hnot
          exact hinitial ⟨Bool.eq_true_of_not_eq_false hnot, hinit⟩
        rw [if_neg hback]
        exact .initial q r hq hwait ⟨haddr, htoken.symm, hlen, hinit, not_not.mp hstatus, hparse⟩

end Tracks

section History

variable {κ : Type} {g : Gas κ} {ops : List (Op κ)} {op : Op κ} {c : Callback κ}

inductive Run : List (Op κ) → Gas κ → Prop where
  | init : Run [] {}
  | step {ops : List (Op κ)} {g : Gas κ} (op : Op κ) (hrun : Run ops g) (hfires : Fires g op) :
      Run (ops ++ [op]) (exec g op)

def frameOf (k : Addr × UInt8) : Op κ → Option Octets
  | .rx _ sa data => if (sa, data.getD 1 0) = k then some data else none
  | _ => none

def heard (k : Addr × UInt8) (ops : List (Op κ)) : List Octets := ops.filterMap (frameOf k)

def Asked (ops : List (Op κ)) (dst : Addr) (dialogToken : UInt8) (cb : κ) (since : List (Op κ)) : Prop :=
  ∃ before g a freq req, ops = before ++ .req a dst freq req cb :: since ∧ Run before g ∧
    3 ≤ req.length ∧ a.queryAlloc = true ∧ freeDialogToken g dst = some dialogToken

-- Frames with fragments, each beside what it carries, of which more are said to come up to a number of them
def Fragments (dialogToken : UInt8) (adv : Octets) (count : ℕ) (used : List (Octets × Octets)) : Prop :=
  ∀ i p, used[i]? = some p → IsFragment dialogToken adv i (decide (i + 1 < count)) p.2 p.1

def Answered (ops : List (Op κ)) (c : Callback κ) : Prop :=
  ∃ since a frame adv resp fields, Asked ops c.dst c.dialogToken c.cb (since ++ [.rx a c.dst frame]) ∧
    frame = gasInitialResp :: c.dialogToken :: 0 :: 0 :: fields ∧ Fields 0 adv resp fields ∧
    c.advProto = some adv ∧ c.resp = some resp

def Reassembled (ops : List (Op κ)) (c : Callback κ) : Prop :=
  ∃ since adv initial used, Asked ops c.dst c.dialogToken c.cb since ∧
    (initial :: used.map Prod.fst).Sublist (heard (c.dst, c.dialogToken) since) ∧
    PutsOff c.dialogToken adv initial ∧ used ≠ [] ∧ Fragments c.dialogToken adv used.length used ∧
    c.advProto = some adv ∧ c.resp = some (used.flatMap Prod.snd)

-- How far a query is
inductive Gathered (ops : List (Op κ)) (t : Track κ) : Prop where
  | asked (since : List (Op κ)) (hasked : Asked ops t.addr t.dialogToken t.cb since)
      (hwait : t.waitComeback = false) (hresp : t.resp = none) (hnext : t.nextFragId = 0)
  | putOff (since : List (Op κ)) (adv initial : Octets) (used : List (Octets × Octets))
      (hasked : Asked ops t.addr t.dialogToken t.cb since)
      (hsub : (initial :: used.map Prod.fst).Sublist (heard (t.addr, t.dialogToken) since))
      (hoff : PutsOff t.dialogToken adv initial) (hused : Fragments t.dialogToken adv (used.length + 1) used)
      (hwait : t.waitComeback = true) (hadv : t.advProto = some adv)
      (hresp : t.resp.getD [] = used.flatMap Prod.snd) (hnext : t.nextFragId.toNat = used.length)

theorem Asked.later {dst : Addr} {dialogToken : UInt8} {cb : κ} {since : List (Op κ)}
    (h : Asked ops dst dialogToken cb since) (op : Op κ) : Asked (ops ++ [op]) dst dialogToken cb (since ++ [op]) := by
  obtain ⟨before, g, a, freq, req, rfl, hrest⟩ := h
  exact ⟨before, g, a, freq, req, by simp, hrest⟩

theorem heard_append (k : Addr × UInt8) (ops ops' : List (Op κ)) : heard k (ops ++ ops') = heard k ops ++ heard k ops' :=
  List.filterMap_append

theorem Gathered.later {t : Track κ} (h : Gathered ops t) (op : Op κ) : Gathered (ops ++ [op]) t := by
  cases h with
  | asked since hasked hwait hresp hnext => exact .asked _ (hasked.later op) hwait hresp hnext
  | putOff since adv initial used hasked hsub hoff hused hwait hadv hresp hnext =>
    refine .putOff _ adv initial used (hasked.later op) ?_ hoff hused hwait hadv hresp hnext
    rw [heard_append]
    exact hsub.trans (List.sublist_append_left _ _)

theorem Fragments.snoc {dialogToken : UInt8} {adv : Octets} {count : ℕ} {used : List (Octets × Octets)}
    {resp frame : Octets} (h : Fragments dialogToken adv (used.length + 1) used) (hcount : used.length < count)
    (hlast : IsFragment dialogToken adv used.length (decide (used.length + 1 < count)) resp frame) :
    Fragments dialogToken adv count (used ++ [(frame, resp)]) := by
  intro i p hp
  by_cases hi : i < used.length
  · rw [List.getElem?_append_left hi] at hp
    have hfragment := h i p hp
    rw [decide_eq_true (by omega)] at hfragment
    rw [decide_eq_true (by omega)]
    exact hfragment
  · rw [List.getElem?_append_right (by omega)] at hp
    obtain ⟨hpos, hpair⟩ := List.getElem?_eq_some_iff.mp hp
    rw [List.length_singleton] at hpos
    obtain rfl : i = used.length := by omega
    simp at hpair
    rw [← hpair]
    exact hlast

theorem run_keyed (h : Run ops g) : Keyed g := by
  induction h with
  | init => exact .init
  | step op _ hfires ih => exact ih.exec op hfires

variable {q : Query κ} {sa : Addr} {data : Octets} {r : Response}

theorem Accepted.heard {action : UInt8} (h : Accepted q sa data action r) (a : Answers)
    (since : List (Op κ)) :
    heard (q.addr, q.dialogToken) (since ++ [.rx a sa data]) = GasQuery.heard (q.addr, q.dialogToken) since ++ [data] := by
  have hframe : frameOf (q.addr, q.dialogToken) (.rx a sa data : Op κ) = some data := by
    rw [frameOf, if_pos (by rw [h.addr, h.dialogToken])]
  rw [heard_append]
  congr 1
  simp [GasQuery.heard, hframe]

theorem Gathered.off {a : Answers} (h : Gathered ops q.track) (hwait : q.waitComeback = false)
    (haccepted : Accepted q sa data gasInitialResp r) (hdelay : r.comebackDelay ≠ 0) :
    Gathered (ops ++ [.rx a sa data]) { q.track with waitComeback := true, advProto := some r.advProto } := by
  obtain ⟨hframe, hfields⟩ :=
    fields_of_initial haccepted.length haccepted.action haccepted.status haccepted.parse
  rw [haccepted.dialogToken] at hframe
  cases h with
  | asked since hasked hwait' hresp hnext =>
    refine .putOff _ r.advProto data [] (hasked.later _) ?_ ⟨_, _, _, hdelay, hframe, hfields⟩ ?_ rfl rfl ?_ ?_
    · have hheard := haccepted.heard a since
      dsimp only [Query.track]
      rw [hheard]
      exact List.sublist_append_right _ _
    · intro i p hp
      cases hp
    · dsimp only
      rw [hresp]
      rfl
    · dsimp only
      rw [hnext]
      rfl
  | putOff since adv initial used hasked hsub hoff hused hwait' =>
    exact absurd (hwait.symm.trans hwait') (by decide)

theorem Gathered.fragment (h : Gathered ops q.track) (a : Answers) (hwait : q.waitComeback = true)
    (haccepted : Accepted q sa data gasComebackResp r) (hdelay : r.comebackDelay = 0)
    (hadv : q.advProto = some r.advProto) (hid : r.fragId = q.nextFragId) :
    ∃ since initial used, Asked (ops ++ [.rx a sa data]) q.addr q.dialogToken q.cb since ∧
      (initial :: (used ++ [(data, r.resp)]).map Prod.fst).Sublist (heard (q.addr, q.dialogToken) since) ∧
      PutsOff q.dialogToken r.advProto initial ∧ Fragments q.dialogToken r.advProto (used.length + 1) used ∧
      IsFragment q.dialogToken r.advProto used.length r.moreFrags r.resp data ∧
      q.resp.getD [] = used.flatMap Prod.snd ∧ q.nextFragId.toNat = used.length ∧ used.length < 128 := by
  obtain ⟨hlt, hframe⟩ :=
    fragment_of_comeback haccepted.length haccepted.action haccepted.status haccepted.parse hdelay
  rw [haccepted.dialogToken] at hframe
  cases h with
  | asked since hasked hwait' => exact absurd (hwait.symm.trans hwait') (by decide)
  | putOff since adv initial used hasked hsub hoff hused hwait' hadv' hresp hnext =>
    obtain rfl : r.advProto = adv := Option.some.inj (hadv.symm.trans hadv')
    have hcount : r.fragId.toNat = used.length := (congrArg UInt8.toNat hid).trans hnext
    rw [hcount] at hframe hlt
    refine ⟨_, initial, used, hasked.later _, ?_, hoff, hused, hframe, hresp, hnext, hlt⟩
    rw [haccepted.heard a since, List.map_append, ← List.cons_append]
    exact hsub.append (List.Sublist.refl _)

theorem Gathered.more (h : Gathered ops q.track) (a : Answers) (hwait : q.waitComeback = true)
    (haccepted : Accepted q sa data gasComebackResp r) (hdelay : r.comebackDelay = 0)
    (hadv : q.advProto = some r.advProto) (hid : r.fragId = q.nextFragId) (hmore : r.moreFrags = true) :
    Gathered (ops ++ [.rx a sa data])
      { q.track with nextFragId := q.nextFragId + 1, resp := some (q.resp.getD [] ++ r.resp) } := by
  obtain ⟨since, initial, used, hasked, hsub, hoff, hused, hframe, hresp, hnext, hlt⟩ :=
    h.fragment a hwait haccepted hdelay hadv hid
  rw [hmore, ← decide_eq_true (Nat.lt_succ_self (used.length + 1))] at hframe
  refine .putOff since r.advProto initial (used ++ [(data, r.resp)]) hasked hsub hoff ?_ hwait hadv ?_ ?_
  · rw [List.length_append]
    exact hused.snoc (Nat.lt_succ_of_lt (Nat.lt_succ_self _)) hframe
  · dsimp only
    rw [Option.getD_some, hresp, List.flatMap_append]
    simp
  · dsimp only
    rw [UInt8.toNat_add, hnext, List.length_append]
    simp
    omega

theorem Gathered.last (h : Gathered ops q.track) (a : Answers) (hwait : q.waitComeback = true)
    (haccepted : Accepted q sa data gasComebackResp r) (hdelay : r.comebackDelay = 0)
    (hadv : q.advProto = some r.advProto) (hid : r.fragId = q.nextFragId) (hmore : r.moreFrags = false)
    (hcb : c.cb = q.cb) (hdst : c.dst = q.addr) (htoken : c.dialogToken = q.dialogToken)
    (hproto : c.advProto = q.advProto) (hall : c.resp = some (q.resp.getD [] ++ r.resp)) :
    Reassembled (ops ++ [.rx a sa data]) c := by
  obtain ⟨since, initial, used, hasked, hsub, hoff, hused, hframe, hresp, hnext, hlt⟩ :=
    h.fragment a hwait haccepted hdelay hadv hid
  rw [hmore, ← decide_eq_false (Nat.lt_irrefl (used.length + 1))] at hframe
  refine ⟨since, r.advProto, initial, used ++ [(data, r.resp)], ?_, ?_, ?_, ?_, ?_, ?_, ?_⟩
  · rw [hcb, hdst, htoken]
    exact hasked
  · rw [hdst, htoken]
    exact hsub
  · rw [htoken]
    exact hoff
  · simp
  · rw [htoken, List.length_append]
    exact hused.snoc (Nat.lt_succ_self _) hframe
  · rw [hproto, hadv]
  · rw [hall, hresp, List.flatMap_append]
    simp

theorem Gathered.answered (h : Gathered ops q.track) (a : Answers) (hwait : q.waitComeback = false)
    (haccepted : Accepted q sa data gasInitialResp r) (hdelay : r.comebackDelay = 0) (hcb : c.cb = q.cb)
    (hdst : c.dst = q.addr) (htoken : c.dialogToken = q.dialogToken)
    (hproto : c.advProto = some r.advProto) (hall : c.resp = some (q.resp.getD [] ++ r.resp)) :
    Answered (ops ++ [.rx a sa data]) c := by
  obtain ⟨hframe, hfields⟩ :=
    fields_of_initial haccepted.length haccepted.action haccepted.status haccepted.parse
  rw [haccepted.dialogToken] at hframe
  cases h with
  | asked since hasked hwait' hresp hnext =>
    have hnone : q.resp = none := hresp
    refine ⟨since, a, data, r.advProto, r.resp, data.drop 4, ?_, ?_, hdelay ▸ hfields, hproto, ?_⟩
    · rw [hcb, hdst, htoken, ← haccepted.addr]
      exact hasked.later _
    · rw [htoken]
      exact hframe
    · rw [hall, hnone]
      rfl
  | putOff since adv initial used hasked hsub hoff hused hwait' =>
    exact absurd (hwait.symm.trans hwait') (by decide)

theorem Gathered.new {a : Answers} {dst : Addr} {freq : ℤ} {req : Octets} {cb : κ} {token : UInt8} (hrun : Run ops g)
    (hlen : ¬req.length < 3) (htoken : freeDialogToken g dst = some token) (halloc : a.queryAlloc = true) :
    Gathered (ops ++ [.req a dst freq req cb]) (newQuery a g dst freq token cb).track :=
  .asked [] ⟨ops, g, a, freq, req, rfl, hrun, Nat.not_lt.mp hlen, halloc, htoken⟩ rfl rfl rfl

theorem exec_gathered (hrun : Run ops g) (h : Tracks (Gathered ops) g) (op : Op κ) (hfires : Fires g op) :
    Tracks (Gathered (ops ++ [op])) (exec g op) := by
  have hnumbered := (run_keyed hrun).toNumbered
  have hlater : Tracks (Gathered (ops ++ [op])) g := fun q hq => (h q hq).later op
  cases op with
  | req a dst freq req cb =>
    have hrequested := gasQueryReq_requested hnumbered a dst freq req cb
    simp only [exec]
    generalize gasQueryReq a g dst freq req cb = res at hrequested
    cases hrequested with
    | refused => exact hlater
    | unsent token g' hlen htoken halloc htx hpending | accepted token g' hlen htoken halloc htx hpending =>
      intro q hq
      rw [hpending] at hq
      rcases List.mem_cons.mp hq with rfl | hq
      · exact Gathered.new hrun hlen htoken halloc
      · exact hlater q hq
  | rx a sa data =>
    have hreceived := gasQueryRx_received a g sa data
    have hset (q : Query κ) (hq : q ∈ g.pending) :
        Tracks (Gathered (ops ++ [.rx a sa data])) (g.set { q with statusCode := getLE16 data 2 }) :=
      hlater.set (hlater q hq)
    have hserials (q : Query κ) :
        ((g.set { q with statusCode := getLE16 data 2 }).pending.map Query.serial).Nodup := by
      rw [serials_set]
      exact hnumbered.serials
    simp only [exec]
    generalize (gasQueryRx a g sa data).2 = res at hreceived
    cases hreceived with
    | dropped => exact hlater
    | failed q hq => exact (hset q hq).done _
    | malformed q hq => exact hset q hq
    | comeback q r hq hwait haccepted =>
      refine (hset q hq).rxComeback (hserials q) (hlater q hq) ?_
      exact fun hdelay hadv hid hmore => (h q hq).more a hwait haccepted hdelay hadv hid hmore
    | initial q r hq hwait haccepted =>
      refine (hset q hq).rxInitial (hserials q) ?_
      exact fun hdelay => (h q hq).off hwait haccepted hdelay
  | timeout q => exact hlater.done _
  | comebackTimeout a q =>
    have hset : Tracks (Gathered (ops ++ [.comebackTimeout a q])) (g.set { q with comebackArmed := false }) :=
      hlater.set (hlater q hfires.1)
    have hq : Gathered (ops ++ [.comebackTimeout a q]) { q with comebackArmed := false }.track := hlater q hfires.1
    exact hset.comebackReq hq a
  | cancel dst dialogToken =>
    simp only [exec]
    unfold gasQueryCancel
    split
    · exact hlater.done _
    · exact hlater

theorem run_gathered (h : Run ops g) : Tracks (Gathered ops) g := by
  induction h with
  | init => exact fun q hq => absurd hq List.not_mem_nil
  | step op hrun hfires ih => exact exec_gathered hrun ih op hfires

-- A query that succeeds has the response of the initial response, or that of the fragments that came after it.
theorem success_reassembled (hrun : Run ops g) (hcall : callback g op = some c)
    (hsuccess : c.result = .success) : Answered (ops ++ [op]) c ∨ Reassembled (ops ++ [op]) c := by
  have hgathered := run_gathered hrun
  cases op with
  | req => cases hcall
  | rx a sa data =>
    have hreceived := gasQueryRx_received a g sa data
    simp only [callback] at hcall
    generalize (gasQueryRx a g sa data).2 = res at hreceived hcall
    cases hreceived with
    | dropped => cases hcall
    | failed q hq =>
      cases hcall
      cases hsuccess
    | malformed q hq => cases hcall
    | comeback q r hq hwait haccepted =>
      obtain ⟨hadv, hdelay, hid, hmore, hcb, hdst, htoken, hproto, hall⟩ := rxComeback_success hcall hsuccess
      exact .inr ((hgathered q hq).last a hwait haccepted hdelay hadv hid hmore hcb hdst htoken hproto hall)
    | initial q r hq hwait haccepted =>
      obtain ⟨hdelay, hcb, hdst, htoken, hproto, hall⟩ := rxInitial_success hcall hsuccess
      exact .inl ((hgathered q hq).answered a hwait haccepted hdelay hcb hdst htoken hproto hall)
  | timeout q =>
    cases hcall
    cases hsuccess
  | comebackTimeout a q => exact absurd hsuccess (comebackReq_fails hcall)
  | cancel dst dialogToken =>
    simp only [callback] at hcall
    unfold gasQueryCancel at hcall
    split at hcall
    · cases hcall
      cases hsuccess
    · cases hcall

-- A request to a peer that puts the station off and then sends two fragments
def samplePutOff : Op Unit := .rx {} 1 ((gasAnqpBuildInitialRespBuf 0 0 1 []).drop 1)
def sampleFragment (fragId : UInt8) (more : Bool) (payload : Octets) : Op Unit :=
  .rx {} 1 ((gasAnqpBuildComebackRespBuf 0 0 fragId more 0 payload).drop 1)
def sampleRun : List (Op Unit) := [sampleReq 0, samplePutOff, sampleFragment 0 true [7, 8]]
def sampleSuccess : Callback Unit where
  cb := ()
  dst := 1
  dialogToken := 0
  result := .success
  advProto := some advProtoAnqp
  resp := some [7, 8, 9]
  statusCode := 0

theorem two_fragments_reassembled : Reassembled (sampleRun ++ [sampleFragment 1 false [9]]) sampleSuccess := by
  have hrun : Run sampleRun (exec (exec (exec {} (sampleReq 0)) samplePutOff) (sampleFragment 0 true [7, 8])) :=
    .step (sampleFragment 0 true [7, 8]) (.step samplePutOff (.step (sampleReq 0) .init trivial) trivial) trivial
  have hcall : callback (exec (exec (exec {} (sampleReq 0)) samplePutOff) (sampleFragment 0 true [7, 8]))
      (sampleFragment 1 false [9]) = some sampleSuccess := by decide
  rcases success_reassembled hrun hcall rfl with ⟨since, a, frame, adv, resp, fields, hasked, hframe, -⟩ | h
  · obtain ⟨before, g, a', freq, req, hops, -⟩ := hasked
    have hlast := congrArg List.getLast? hops
    rw [List.getLast?_append, List.getLast?_append, ← List.cons_append, List.getLast?_append] at hlast
    simp only [List.getLast?_singleton, Option.some_or, sampleFragment, Option.some.injEq, Op.rx.injEq] at hlast
    rw [hframe] at hlast
    exact absurd (List.cons.inj hlast.2.2).1 (by decide)
  · exact h

end History

end WpaSupplicant.GasQuery
