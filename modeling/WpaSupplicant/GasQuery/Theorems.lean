import Mathlib.Data.List.Nodup
import WpaSupplicant.GasQuery

namespace WpaSupplicant.GasQuery

variable {κ : Type} {g g1 g2 g' : Gas κ} {q q' : Query κ}

-- What identifies a query and what its end needs; the other fields follow the responses.
def Query.core (q : Query κ) : ℕ × (Addr × UInt8) × κ × Bool :=
  (q.serial, (q.addr, q.dialogToken), q.cb, q.timeoutArmed)

structure Kept (g g' : Gas κ) : Prop where
  pending : g'.pending.map Query.core = g.pending.map Query.core
  next : g'.next = g.next
  issued : g'.issued = g.issued
  called : g'.called = g.called

theorem Kept.refl (g : Gas κ) : Kept g g := ⟨rfl, rfl, rfl, rfl⟩

theorem Kept.trans (h : Kept g g1) (h' : Kept g1 g2) : Kept g g2 :=
  ⟨h'.pending.trans h.pending, h'.next.trans h.next, h'.issued.trans h.issued,
    h'.called.trans h.called⟩

theorem Kept.emit (g : Gas κ) (o : Output) : Kept g (g.emit o) := ⟨rfl, rfl, rfl, rfl⟩

theorem Kept.map {β : Type} (h : Kept g g') (f : ℕ × (Addr × UInt8) × κ × Bool → β) :
    g'.pending.map (fun q => f q.core) = g.pending.map fun q => f q.core := by
  have := congrArg (List.map f) h.pending
  simpa [List.map_map, Function.comp_def] using this

theorem Kept.serials (h : Kept g g') :
    g'.pending.map Query.serial = g.pending.map Query.serial := h.map (·.1)

structure Numbered (g : Gas κ) : Prop where
  serials : (g.pending.map Query.serial).Nodup
  fresh : ∀ s ∈ g.pending.map Query.serial, s < g.next

theorem Numbered.kept (h : Numbered g) (hkept : Kept g g') : Numbered g' := by
  constructor
  · rw [hkept.serials]
    exact h.serials
  · rw [hkept.serials, hkept.next]
    exact h.fresh

theorem set_kept (q' : Query κ) (h : Numbered g) (hq : q ∈ g.pending)
    (hcore : q'.core = q.core) : Kept g (g.set q') ∧ q' ∈ (g.set q').pending := by
  have hserial : q'.serial = q.serial := congrArg (·.1) hcore
  constructor
  · refine ⟨?_, rfl, rfl, rfl⟩
    rw [Gas.set, List.map_map]
    refine List.map_congr_left fun r hr => ?_
    simp only [Function.comp_apply]
    by_cases hrs : r.serial = q'.serial
    · have hrq : r = q := List.inj_on_of_nodup_map h.serials hr hq (hrs.trans hserial)
      rw [if_pos hrs, hcore, hrq]
    · rw [if_neg hrs]
  · refine List.mem_map.mpr ⟨q, hq, ?_⟩
    rw [if_pos hserial.symm]

structure Ends (g : Gas κ) (s : ℕ) (g' : Gas κ) : Prop where
  pending : g'.pending = g.pending.eraseP fun r => r.serial = s
  next : g'.next = g.next
  issued : g'.issued = g.issued
  called : g'.called = g.called ++ [s]

theorem Ends.serials {s : ℕ} (hends : Ends g s g') :
    g'.pending.map Query.serial = (g.pending.map Query.serial).erase s := by
  rw [hends.pending, List.erase_eq_eraseP, List.eraseP_map]
  congr 2
  funext r
  by_cases hr : r.serial = s
  · simp [hr]
  · simp [hr, Ne.symm hr]

theorem Ends.sublist {s : ℕ} (hends : Ends g s g') : g'.pending.Sublist g.pending := by
  rw [hends.pending]
  exact List.eraseP_sublist

theorem Numbered.ends {s : ℕ} (h : Numbered g) (hends : Ends g s g') : Numbered g' := by
  constructor
  · rw [hends.serials]
    exact h.serials.erase s
  · intro t ht
    rw [hends.serials] at ht
    rw [hends.next]
    exact h.fresh t (List.mem_of_mem_erase ht)

inductive Outcome (g : Gas κ) (q : Query κ) : Gas κ × Option (Callback κ) → Prop where
  | kept (g' : Gas κ) (hkept : Kept g g') : Outcome g q (g', none)
  | ended (g1 g' : Gas κ) (c : Callback κ) (hkept : Kept g g1) (hends : Ends g1 q.serial g')
      (hcb : c.cb = q.cb) (hdst : c.dst = q.addr) : Outcome g q (g', some c)

theorem Outcome.after {r : Gas κ × Option (Callback κ)} (hkept : Kept g g1)
    (hcore : q'.core = q.core) (h : Outcome g1 q' r) : Outcome g q r := by
  cases h with
  | kept g' hk => exact .kept g' (hkept.trans hk)
  | ended g2 g' c hk hends hcb hdst =>
    have hserial : q'.serial = q.serial := congrArg (·.1) hcore
    have haddr : q'.addr = q.addr := congrArg (·.2.1.1) hcore
    have hcb' : q'.cb = q.cb := congrArg (·.2.2.1) hcore
    exact .ended g2 g' c (hkept.trans hk) (hserial ▸ hends) (hcb.trans hcb') (hdst.trans haddr)

theorem Numbered.outcome {r : Gas κ × Option (Callback κ)} (h : Numbered g)
    (hout : Outcome g q r) : Numbered r.1 := by
  cases hout with
  | kept g' hkept => exact h.kept hkept
  | ended g1 g' c hkept hends hcb hdst => exact (h.kept hkept).ends hends

theorem gasQueryDone_pending (g : Gas κ) (q : Query κ) (result : Result) :
    (gasQueryDone g q result).1.pending = g.pending.eraseP fun r => r.serial = q.serial := by
  unfold gasQueryDone
  by_cases htx : q.offchannelTxStarted = true
  · rw [if_pos htx]
    rfl
  · rw [if_neg htx]

theorem gasQueryDone_ends (g : Gas κ) (q : Query κ) (result : Result) :
    ∃ g1, Kept g g1 ∧ Ends g1 q.serial (gasQueryDone g q result).1 := by
  unfold gasQueryDone
  by_cases htx : q.offchannelTxStarted = true
  · rw [if_pos htx]
    exact ⟨g.emit .sendActionDone, .emit g _, rfl, rfl, rfl, rfl⟩
  · rw [if_neg htx]
    exact ⟨g, .refl g, rfl, rfl, rfl, rfl⟩

theorem gasQueryDone_outcome (g : Gas κ) (q : Query κ) (result : Result) :
    Outcome g q (gasQueryDone g q result) := by
  obtain ⟨g1, hkept, hends⟩ := gasQueryDone_ends g q result
  exact .ended g1 _ _ hkept hends rfl rfl

section Query

variable (h : Numbered g) (hq : q ∈ g.pending)
include h hq

theorem gasQueryTx_kept (a : Answers) (req : Octets) :
    Kept g (gasQueryTx a g q req).1 ∧ (gasQueryTx a g q req).2.core = q.core := by
  unfold gasQueryTx
  dsimp only
  have hset (q' : Query κ) (hcore : q'.core = q.core) :
      Kept g ((g.emit (.sendAction q.addr q.freq req)).set q') :=
    (Kept.emit g _).trans
      (set_kept (g := g.emit (.sendAction q.addr q.freq req)) q' (h.kept (.emit g _)) hq hcore).1
  split
  · exact ⟨hset _ rfl, rfl⟩
  · exact ⟨hset _ rfl, rfl⟩

theorem gasQueryTxComebackReq_outcome (a : Answers) :
    Outcome g q (gasQueryTxComebackReq a g q) := by
  obtain ⟨hkept, hcore⟩ := gasQueryTx_kept h hq a (gasBuildComebackReq q.dialogToken)
  unfold gasQueryTxComebackReq
  split
  · exact gasQueryDone_outcome g q _
  dsimp only
  split
  · exact (gasQueryDone_outcome _ _ _).after hkept hcore
  · exact .kept _ hkept

theorem outcome_of_set (q' : Query κ) (hcore : q'.core = q.core) {r : Gas κ × Option (Callback κ)}
    (hgo : Numbered (g.set q') → q' ∈ (g.set q').pending → Outcome (g.set q') q' r) :
    Outcome g q r := by
  obtain ⟨hkept, hmem⟩ := set_kept q' h hq hcore
  exact (hgo (h.kept hkept) hmem).after hkept hcore

theorem gasQueryTxComebackReqDelay_kept (a : Answers) (hcore : q'.core = q.core) :
    Kept g (gasQueryTxComebackReqDelay a g q') := by
  unfold gasQueryTxComebackReqDelay
  exact (set_kept { q' with comebackArmed := a.timer } h hq hcore).1

theorem gasQueryRxInitial_outcome (a : Answers) (r : Response) :
    Outcome g q (gasQueryRxInitial a g q r) := by
  unfold gasQueryRxInitial
  split
  · exact gasQueryDone_outcome g q _
  dsimp only
  split
  · refine .kept _ (gasQueryTxComebackReqDelay_kept h hq a ?_)
    rfl
  split
  · refine outcome_of_set h hq _ ?_ fun _ _ => gasQueryDone_outcome _ _ _
    rfl
  · refine outcome_of_set h hq _ ?_ fun _ _ => gasQueryDone_outcome _ _ _
    rfl

theorem gasQueryRxComeback_outcome (a : Answers) (r : Response) :
    Outcome g q (gasQueryRxComeback a g q r) := by
  unfold gasQueryRxComeback
  split
  · exact gasQueryDone_outcome g q _
  split
  · split
    · exact gasQueryDone_outcome g q _
    · exact .kept _ (gasQueryTxComebackReqDelay_kept h hq a rfl)
  split
  · exact gasQueryDone_outcome g q _
  dsimp only
  split
  · refine outcome_of_set h hq _ ?_ fun _ _ => gasQueryDone_outcome _ _ _
    rfl
  split
  · refine outcome_of_set h hq _ ?_ fun hs hm => gasQueryTxComebackReq_outcome hs hm a
    rfl
  · refine outcome_of_set h hq _ ?_ fun _ _ => gasQueryDone_outcome _ _ _
    rfl

theorem gasQueryTxComebackTimeout_outcome (a : Answers) :
    Outcome g q (gasQueryTxComebackTimeout a g q) := by
  unfold gasQueryTxComebackTimeout
  refine outcome_of_set h hq _ ?_ fun hs hm => gasQueryTxComebackReq_outcome hs hm a
  rfl

end Query

theorem gasQueryRx_outcome (h : Numbered g) (a : Answers) (sa : Addr)
    (data : Octets) :
    (gasQueryRx a g sa data).2 = (g, none) ∨
      ∃ q ∈ g.pending, q.addr = sa ∧ Outcome g q (gasQueryRx a g sa data).2 := by
  unfold gasQueryRx
  dsimp only
  split
  · exact .inl rfl
  split
  · exact .inl rfl
  cases hget : gasQueryGetPending g sa (data.getD 1 0) with
  | none => exact .inl rfl
  | some q =>
    have hq : q ∈ g.pending := List.mem_of_find?_eq_some hget
    have haddr : q.addr = sa := by
      have hfound := List.find?_some hget
      simp only [Bool.and_eq_true, decide_eq_true_eq] at hfound
      exact hfound.1
    dsimp only
    split
    · exact .inl rfl
    split
    · exact .inl rfl
    refine .inr ⟨q, hq, haddr, ?_⟩
    refine outcome_of_set h hq { q with statusCode := getLE16 data 2 } rfl fun hs hm => ?_
    split
    · exact gasQueryDone_outcome _ _ _
    split
    · exact .kept _ (.refl _)
    split
    · exact gasQueryRxComeback_outcome hs hm a _
    · exact gasQueryRxInitial_outcome hs hm a _

theorem gasQueryCancel_outcome (g : Gas κ) (dst : Addr) (dialogToken : UInt8) :
    gasQueryCancel g dst dialogToken = (g, none) ∨
      ∃ q ∈ g.pending, q.addr = dst ∧ Outcome g q (gasQueryCancel g dst dialogToken) := by
  unfold gasQueryCancel
  split
  · rename_i q hget
    have hfound := List.find?_some hget
    simp only [Bool.and_eq_true, decide_eq_true_eq] at hfound
    exact .inr ⟨q, List.mem_of_find?_eq_some hget, hfound.1, gasQueryDone_outcome g q _⟩
  · exact .inl rfl

def newQuery (a : Answers) (g : Gas κ) (dst : Addr) (freq : ℤ) (token : UInt8) (cb : κ) : Query κ :=
  { serial := g.next, addr := dst, dialogToken := token, freq := freq, cb := cb,
    offchannelTxStarted := a.tx = 0 }

inductive Requested (a : Answers) (g : Gas κ) (dst : Addr) (freq : ℤ) (req : Octets) (cb : κ) :
    ℤ × Gas κ → Prop where
  | refused (hwhy : req.length < 3 ∨ freeDialogToken g dst = none ∨ a.queryAlloc = false) :
      Requested a g dst freq req cb (-1, g)
  | unsent (token : UInt8) (g' : Gas κ) (hlen : ¬ req.length < 3)
      (htoken : freeDialogToken g dst = some token) (halloc : a.queryAlloc = true) (htx : a.tx < 0)
      (hpending : g'.pending =
        { newQuery a g dst freq token cb with freed := true } :: g.pending)
      (hnext : g'.next = g.next + 1) : Requested a g dst freq req cb (-1, g')
  | accepted (token : UInt8) (g' : Gas κ) (hlen : ¬ req.length < 3)
      (htoken : freeDialogToken g dst = some token) (halloc : a.queryAlloc = true)
      (htx : ¬ a.tx < 0)
      (hpending : g'.pending =
        { newQuery a g dst freq token cb with timeoutArmed := a.timer } :: g.pending)
      (hnext : g'.next = g.next + 1) (hissued : g'.issued = g.issued ++ [g.next])
      (hcalled : g'.called = g.called) : Requested a g dst freq req cb (token.toNat, g')

theorem set_front {l : List (Query κ)} (hg : g.pending = q :: l) (hl : ∀ r ∈ l, r.serial < q.serial)
    (hserial : q'.serial = q.serial) : (g.set q').pending = q' :: l := by
  have hothers : l.map (fun r => if r.serial = q'.serial then q' else r) = l := by
    conv_rhs => rw [← List.map_id l]
    refine List.map_congr_left fun r hr => ?_
    have hne : r.serial ≠ q'.serial := by
      have := hl r hr
      omega
    rw [if_neg hne, id]
  rw [Gas.set, hg, List.map_cons, if_pos hserial.symm, hothers]

theorem gasQueryTx_front {l : List (Query κ)} (a : Answers) (req : Octets)
    (hg : g.pending = q :: l) (hl : ∀ r ∈ l, r.serial < q.serial)
    (htx : q.offchannelTxStarted = false) :
    (gasQueryTx a g q req).2 = { q with offchannelTxStarted := a.tx = 0 } ∧
      (gasQueryTx a g q req).1.pending = { q with offchannelTxStarted := a.tx = 0 } :: l := by
  have hq : (if a.tx = 0 then { q with offchannelTxStarted := true } else q) =
      { q with offchannelTxStarted := a.tx = 0 } := by
    by_cases h0 : a.tx = 0
    · simp only [h0, if_true, decide_true]
    · simp only [h0, if_false, decide_false, ← htx]
  unfold gasQueryTx
  dsimp only
  rw [hq]
  exact ⟨rfl, set_front (g := g.emit _) hg hl rfl⟩

theorem gasQueryReq_requested (h : Numbered g) (a : Answers)
    (dst : Addr) (freq : ℤ) (req : Octets) (cb : κ) :
    Requested a g dst freq req cb (gasQueryReq a g dst freq req cb) := by
  have hfresh : ∀ r ∈ g.pending, r.serial < g.next :=
    fun r hr => h.fresh _ (List.mem_map_of_mem hr)
  unfold gasQueryReq
  by_cases hlen : req.length < 3
  · rw [if_pos hlen]
    exact .refused (.inl hlen)
  rw [if_neg hlen]
  cases htoken : freeDialogToken g dst with
  | none => exact .refused (.inr (.inl htoken))
  | some token =>
    by_cases halloc : a.queryAlloc = true
    · simp only [halloc, Bool.not_true, Bool.false_eq_true, if_false]
      -- the query as it is linked, before its frame is sent
      let q : Query κ :=
        { serial := g.next, addr := dst, dialogToken := token, freq := freq, cb := cb }
      obtain ⟨hq, hpending⟩ := gasQueryTx_front (q := q)
        (g := { g with pending := q :: g.pending, next := g.next + 1 }) a (req.set 2 token)
        rfl hfresh rfl
      by_cases htx : a.tx < 0
      · simp only [htx, if_true]
        refine .unsent token _ hlen htoken halloc htx ?_ rfl
        rw [hq]
        exact set_front hpending hfresh rfl
      simp only [htx, if_false]
      refine .accepted token _ hlen htoken halloc htx ?_ rfl ?_ rfl
      · rw [hq]
        exact set_front hpending hfresh rfl
      · rw [hq]
        rfl
    · simp only [Bool.not_eq_true] at halloc
      simp only [halloc, Bool.not_false, if_true]
      exact .refused (.inr (.inr halloc))

theorem Numbered.requested {a : Answers} {dst : Addr} {freq : ℤ} {req : Octets} {cb : κ}
    {r : ℤ × Gas κ} (h : Numbered g) (hreq : Requested a g dst freq req cb r) : Numbered r.2 := by
  have hnew : (g.next :: g.pending.map Query.serial).Nodup ∧
      ∀ s ∈ g.next :: g.pending.map Query.serial, s < g.next + 1 := by
    constructor
    · refine List.nodup_cons.mpr ⟨fun hmem => ?_, h.serials⟩
      exact absurd (h.fresh _ hmem) (lt_irrefl _)
    · intro s hs
      rcases List.mem_cons.mp hs with rfl | hs
      · omega
      · have := h.fresh s hs
        omega
  cases hreq with
  | refused => exact h
  | unsent token g' hlen htoken halloc htx hpending hnext =>
    constructor
    · rw [hpending]
      exact hnew.1
    · rw [hpending, hnext]
      exact hnew.2
  | accepted token g' hlen htoken halloc htx hpending hnext hissued hcalled =>
    constructor
    · rw [hpending]
      exact hnew.1
    · rw [hpending, hnext]
      exact hnew.2

end WpaSupplicant.GasQuery

namespace WpaSupplicant.GasQuery

variable {κ : Type} {g g' : Gas κ} {q : Query κ}

-- What holds between operations as long as no request fails after its query was linked
structure Booked (g : Gas κ) : Prop extends Numbered g where
  armed : ∀ q ∈ g.pending, q.timeoutArmed = true
  keys : (g.pending.map fun q => (q.addr, q.dialogToken)).Nodup
  listed : ∀ s ∈ g.pending.map Query.serial, s ∈ g.issued
  given : ∀ s ∈ g.issued, s < g.next
  past : ∀ s ∈ g.called, s < g.next
  calls : ∀ s ∈ g.issued, g.called.count s = if s ∈ g.pending.map Query.serial then 0 else 1

theorem Booked.init : Booked ({} : Gas κ) := by
  constructor
  · exact ⟨List.nodup_nil, by simp⟩
  · simp
  · exact List.nodup_nil
  · simp
  · simp
  · simp
  · simp

theorem Booked.kept (h : Booked g) (hkept : Kept g g') : Booked g' := by
  constructor
  · exact h.toNumbered.kept hkept
  · intro q hq
    have hmem : q.core ∈ g.pending.map Query.core := hkept.pending ▸ List.mem_map_of_mem hq
    obtain ⟨r, hr, hcore⟩ := List.mem_map.mp hmem
    have harmed : r.timeoutArmed = q.timeoutArmed := congrArg (·.2.2.2) hcore
    rw [← harmed]
    exact h.armed r hr
  · have hkeys := hkept.map (·.2.1)
    simp only [Query.core] at hkeys
    rw [hkeys]
    exact h.keys
  · rw [hkept.serials, hkept.issued]
    exact h.listed
  · rw [hkept.issued, hkept.next]
    exact h.given
  · rw [hkept.called, hkept.next]
    exact h.past
  · rw [hkept.issued, hkept.called, hkept.serials]
    exact h.calls

theorem Booked.ends {s : ℕ} (h : Booked g) (hs : s ∈ g.pending.map Query.serial)
    (hends : Ends g s g') : Booked g' := by
  constructor
  · exact h.toNumbered.ends hends
  · intro q hq
    exact h.armed q (hends.sublist.subset hq)
  · exact h.keys.sublist (hends.sublist.map _)
  · intro t ht
    rw [hends.serials] at ht
    rw [hends.issued]
    exact h.listed t (List.mem_of_mem_erase ht)
  · rw [hends.issued, hends.next]
    exact h.given
  · intro t ht
    rw [hends.called] at ht
    rw [hends.next]
    rcases List.mem_append.mp ht with ht | ht
    · exact h.past t ht
    · rw [List.mem_singleton.mp ht]
      exact h.fresh s hs
  · intro t ht
    rw [hends.issued] at ht
    have hcount := h.calls t ht
    rw [hends.called, hends.serials, List.count_append, hcount]
    by_cases hts : t = s
    · subst hts
      simp [hs, h.serials.mem_erase_iff]
    · simp [hts, Ne.symm hts, h.serials.mem_erase_iff]

theorem Booked.outcome {r : Gas κ × Option (Callback κ)} (h : Booked g) (hq : q ∈ g.pending)
    (hout : Outcome g q r) : Booked r.1 := by
  cases hout with
  | kept g' hkept => exact h.kept hkept
  | ended g1 g' c hkept hends hcb hdst =>
    refine (h.kept hkept).ends ?_ hends
    rw [hkept.serials]
    exact List.mem_map_of_mem hq

theorem freeDialogToken_free {dst : Addr} {token : UInt8}
    (htoken : freeDialogToken g dst = some token) :
    (dst, token) ∉ g.pending.map fun q => (q.addr, q.dialogToken) := by
  intro hmem
  obtain ⟨q, hq, hkey⟩ := List.mem_map.mp hmem
  obtain ⟨haddr, htok⟩ := Prod.mk.inj hkey
  have havail := List.find?_some htoken
  simp only [gasQueryDialogTokenAvailable, Bool.not_eq_true', List.any_eq_false] at havail
  refine havail q hq ?_
  simp [haddr, htok]

def Sent (g : Gas κ) : Op κ → Prop
  | .req a dst _ req _ =>
    3 ≤ req.length → (freeDialogToken g dst).isSome → a.queryAlloc = true →
      0 ≤ a.tx ∧ a.timer = true
  | _ => True

theorem Booked.requested {a : Answers} {dst : Addr} {freq : ℤ} {req : Octets} {cb : κ}
    {r : ℤ × Gas κ} (h : Booked g) (hsent : Sent g (.req a dst freq req cb))
    (hreq : Requested a g dst freq req cb r) : Booked r.2 := by
  have hnumbered := h.toNumbered.requested hreq
  cases hreq with
  | refused => exact h
  | unsent token g' hlen htoken halloc htx hpending hnext =>
    obtain ⟨htx', -⟩ := hsent (by omega) (by simp [htoken]) halloc
    omega
  | accepted token g' hlen htoken halloc htx hpending hnext hissued hcalled =>
    obtain ⟨-, htimer⟩ := hsent (by omega) (by simp [htoken]) halloc
    have hserials : g'.pending.map Query.serial = g.next :: g.pending.map Query.serial := by
      rw [hpending]
      rfl
    constructor
    · exact hnumbered
    · intro q hq
      rw [hpending] at hq
      rcases List.mem_cons.mp hq with rfl | hq
      · exact htimer
      · exact h.armed q hq
    · rw [hpending, List.map_cons]
      exact List.nodup_cons.mpr ⟨freeDialogToken_free htoken, h.keys⟩
    · intro s hs
      rw [hserials] at hs
      rw [hissued]
      rcases List.mem_cons.mp hs with rfl | hs
      · simp
      · exact List.mem_append_left _ (h.listed s hs)
    · intro s hs
      rw [hissued] at hs
      rw [hnext]
      rcases List.mem_append.mp hs with hs | hs
      · have := h.given s hs
        omega
      · rw [List.mem_singleton.mp hs]
        omega
    · intro s hs
      rw [hcalled] at hs
      rw [hnext]
      have := h.past s hs
      omega
    · intro s hs
      rw [hissued] at hs
      rw [hcalled, hserials]
      rcases List.mem_append.mp hs with hs | hs
      · have hne : s ≠ g.next := by
          have := h.given s hs
          omega
        rw [h.calls s hs]
        simp [hne]
      · have heq : s = g.next := List.mem_singleton.mp hs
        have hnot : s ∉ g.called := fun hmem => by
          have := h.past s hmem
          omega
        rw [List.count_eq_zero.2 hnot, heq]
        simp

theorem Booked.exec (h : Booked g) (op : Op κ) (hfires : Fires g op) (hsent : Sent g op) :
    Booked (exec g op) := by
  cases op with
  | req a dst freq req cb =>
    exact h.requested hsent (gasQueryReq_requested h.toNumbered a dst freq req cb)
  | rx a sa data =>
    rcases gasQueryRx_outcome h.toNumbered a sa data with hsame | ⟨q, hq, -, hout⟩
    · simpa only [GasQuery.exec, hsame] using h
    · exact h.outcome hq hout
  | timeout q => exact h.outcome hfires.1 (gasQueryDone_outcome g q _)
  | comebackTimeout a q =>
    exact h.outcome hfires.1 (gasQueryTxComebackTimeout_outcome h.toNumbered hfires.1 a)
  | cancel dst dialogToken =>
    rcases gasQueryCancel_outcome g dst dialogToken with hsame | ⟨q, hq, -, hout⟩
    · simpa only [GasQuery.exec, hsame] using h
    · exact h.outcome hq hout

theorem reach_booked (hreach : Reach Sent g) : Booked g := by
  induction hreach with
  | init => exact .init
  | step op _ hfires hsent ih => exact ih.exec op hfires hsent

-- As long as the frame of every new query is sent, a refused request leaves the pending queries alone;
-- these have an armed timer and a pair of peer and dialog token of their own; and a query with a token is
-- pending with its callback not yet called, or was called back exactly once.
theorem gas_query_bookkeeping (hreach : Reach Sent g) :
    (∀ a dst freq req cb, Sent g (.req a dst freq req cb) →
        (gasQueryReq a g dst freq req cb).1 = -1 →
        (gasQueryReq a g dst freq req cb).2.pending = g.pending) ∧
      (∀ q ∈ g.pending, q.timeoutArmed = true) ∧
      (g.pending.map fun q => (q.addr, q.dialogToken)).Nodup ∧
      (∀ s ∈ g.issued,
        (∃ q ∈ g.pending, q.serial = s ∧ g.called.count s = 0 ∧
          (gasQueryTimeout g q).1.called.count s = 1 ∧
          s ∉ (gasQueryTimeout g q).1.pending.map Query.serial) ∨
        (s ∉ g.pending.map Query.serial ∧ g.called.count s = 1)) := by
  have h := reach_booked hreach
  refine ⟨?_, h.armed, h.keys, ?_⟩
  · intro a dst freq req cb hsent hres
    have hreq := gasQueryReq_requested h.toNumbered a dst freq req cb
    generalize gasQueryReq a g dst freq req cb = r at hreq hres
    cases hreq with
    | refused => rfl
    | unsent token g' hlen htoken halloc htx =>
      obtain ⟨htx', -⟩ := hsent (by omega) (by simp [htoken]) halloc
      omega
    | accepted => omega
  · intro s hs
    have hcount := h.calls s hs
    by_cases hmem : s ∈ g.pending.map Query.serial
    · rw [if_pos hmem] at hcount
      obtain ⟨q, hq, hqs⟩ := List.mem_map.mp hmem
      refine .inl ⟨q, hq, hqs, hcount, ?_⟩
      obtain ⟨g1, hkept, hends⟩ := gasQueryDone_ends g q .timeout
      have hnot : s ∉ (gasQueryTimeout g q).1.pending.map Query.serial := by
        rw [gasQueryTimeout, hends.serials, ← hqs]
        exact (h.kept hkept).serials.not_mem_erase
      have hcalls := (h.exec (.timeout q) ⟨hq, h.armed q hq⟩ trivial).calls s
        (by rwa [exec, gasQueryTimeout, hends.issued, hkept.issued])
      rw [exec, if_neg hnot] at hcalls
      exact ⟨hcalls, hnot⟩
    · rw [if_neg hmem] at hcount
      exact .inr ⟨hmem, hcount⟩

def sampleReq (tx : ℤ) : Op Unit := .req { tx := tx } 1 2412 [4, 10, 0] ()

theorem gas_query_bookkeeping_request :
    (exec {} (sampleReq 0)).issued = [0] ∧
      ∀ q ∈ (exec {} (sampleReq 0)).pending, q.timeoutArmed = true := by
  have hreach : Reach Sent (exec {} (sampleReq 0)) := by
    refine .step _ .init trivial fun _ _ _ => ?_
    decide
  exact ⟨by decide, (gas_query_bookkeeping hreach).2.1⟩

-- A request whose frame cannot be sent is refused, yet its query stays in the list, freed and
-- with no timer.
theorem unsent_query_stays :
    Reach (fun _ _ => True) ({} : Gas Unit) ∧
      (gasQueryReq { tx := -1 } ({} : Gas Unit) 1 2412 [4, 10, 0] ()).1 = -1 ∧
      (exec {} (sampleReq (-1))).pending ≠ ({} : Gas Unit).pending ∧
      ∃ q ∈ (exec {} (sampleReq (-1))).pending, q.freed = true ∧ q.timeoutArmed = false := by
  refine ⟨.init, ?_⟩
  decide

end WpaSupplicant.GasQuery
