import WpaSupplicant.Interworking.Lemmas

namespace WpaSupplicant.Interworking

open Bss GasQuery

variable {w w' : Wpa} {env : Env} {g g' : Gas Cb}

def HasDriver (g : Gas Cb) : Prop := ∃ q ∈ g.pending, q.cb = .interworkingAnqpRespCb

theorem HasDriver.kept (h : HasDriver g) (hkept : Kept g g') : HasDriver g' := by
  obtain ⟨q, hq, hcb⟩ := h
  have hmem : q.core ∈ g'.pending.map Query.core := hkept.pending ▸ List.mem_map_of_mem hq
  obtain ⟨r, hr, hcore⟩ := List.mem_map.mp hmem
  have hrcb : r.cb = q.cb := congrArg (·.2.2.1) hcore
  exact ⟨r, hr, hrcb.trans hcb⟩

theorem HasDriver.ends (h : HasDriver g) {q : Query Cb} (hn : Numbered g)
    (hq : q.serial ∈ g.pending.map Query.serial → ∃ r ∈ g.pending, r.serial = q.serial ∧
      r.cb = .anqpRespCb) (hends : Ends g q.serial g') : HasDriver g' := by
  obtain ⟨d, hd, hcb⟩ := h
  have hne : d.serial ≠ q.serial := by
    intro heq
    obtain ⟨r, hr, hrs, hrcb⟩ := hq (heq ▸ List.mem_map_of_mem hd)
    have hrd : r = d := List.inj_on_of_nodup_map hn.serials hr hd (hrs.trans heq.symm)
    rw [hrd, hcb] at hrcb
    cases hrcb
  refine ⟨d, ?_, hcb⟩
  rw [hends.pending]
  exact (List.mem_eraseP_of_neg (by simpa using hne)).mpr hd

theorem HasDriver.requested (h : HasDriver g) {a : Answers} {dst : Addr} {freq : ℤ} {req : Octets}
    {cb : Cb} {r : ℤ × Gas Cb} (hreq : Requested a g dst freq req cb r) : HasDriver r.2 := by
  obtain ⟨q, hq, hcb⟩ := h
  cases hreq with
  | refused => exact ⟨q, hq, hcb⟩
  | unsent token g' hlen htoken halloc htx hpending | accepted token g' hlen htoken halloc htx hpending =>
    refine ⟨q, ?_, hcb⟩
    rw [hpending]
    exact List.mem_cons_of_mem _ hq

structure Driven (w : Wpa) : Prop where
  gas : Booked w.gas
  driver : w.fetchAnqpInProgress = true → HasDriver w.gas

def Startable (env : Env) (w : Wpa) : Prop :=
  w.fetchAnqpInProgress = true → ∀ p, nextBss w.table = some p →
    (isHs20 (w.table.heap p) = true → env.extraAlloc = true) ∧ env.bufAlloc = true ∧
      (freeDialogToken w.gas (w.table.heap p).bssid).isSome = true ∧
      env.req.queryAlloc = true ∧ 0 ≤ env.req.tx ∧ env.req.timer = true

-- Every query a fetch asks for is started, and no other request fails after its query was linked.
def Started (w : Wpa) (op : Op) : Prop :=
  (∀ w1, Calls w op w1 → Startable op.answers w1) ∧
    match op with
    | .anqpSendReq env dst _ | .hs20AnqpSendReq env dst _ _ =>
      (freeDialogToken w.gas dst).isSome = true → env.req.queryAlloc = true →
        0 ≤ env.req.tx ∧ env.req.timer = true
    | _ => True

theorem Driven.continues (hgas : Booked w.gas) (hstart : Startable env w)
    (h : Continues env w w') : Driven w' := by
  cases h with
  | idle hidle => exact ⟨hgas, fun hrun => by rw [hidle] at hrun; cases hrun⟩
  | completed => exact ⟨hgas, fun hrun => nomatch hrun⟩
  | unbuilt p hrun hp hwhy =>
    obtain ⟨hextra, hbuf, -⟩ := hstart hrun p hp
    rcases hwhy with ⟨hhs20, hno⟩ | hno
    · rw [hextra hhs20] at hno
      cases hno
    · rw [hbuf] at hno
      cases hno
  | asked p buf r hrun hp hbuf hreq =>
    obtain ⟨-, -, htoken, halloc, htx, htimer⟩ := hstart hrun p hp
    refine ⟨hgas.requested (fun _ _ _ => ⟨htx, htimer⟩) hreq, fun _ => ?_⟩
    show HasDriver r.2
    cases hreq with
    | refused hwhy =>
      rcases hwhy with hlen | hnone | hno
      · omega
      · rw [hnone] at htoken
        cases htoken
      · rw [halloc] at hno
        cases hno
    | unsent token g' hlen hfree _ hneg => omega
    | accepted token g' hlen hfree _ hneg hpending =>
      unfold HasDriver
      rw [hpending]
      exact ⟨_, List.mem_cons_self .., rfl⟩

-- An event ends one query, whose callback it calls, or none.
theorem Driven.event (h : Driven w) {ev : GasEvent} (hpromised : Promised w (.gas env ev)) :
    Booked (gasEvent env.gas w.gas ev).1 ∧
      ((∀ c, (gasEvent env.gas w.gas ev).2 = some c → c.cb = .anqpRespCb) →
        w.fetchAnqpInProgress = true → HasDriver (gasEvent env.gas w.gas ev).1) := by
  rcases gasEvent_outcome h.gas.toNumbered ev hpromised with hsame | ⟨q, hq, hout⟩
  · rw [hsame]
    exact ⟨h.gas, fun _ => h.driver⟩
  refine ⟨h.gas.outcome hq hout, ?_⟩
  generalize gasEvent env.gas w.gas ev = r at hout
  intro hcb hrun
  cases hout with
  | kept g' hkept => exact (h.driver hrun).kept hkept
  | ended g1 g' c hkept hends hc hdst =>
    refine ((h.driver hrun).kept hkept).ends (h.gas.kept hkept).toNumbered ?_ hends
    intro _
    have hmem : q.core ∈ g1.pending.map Query.core := hkept.pending ▸ List.mem_map_of_mem hq
    obtain ⟨r, hr, hcore⟩ := List.mem_map.mp hmem
    have hrs : r.serial = q.serial := congrArg (·.1) hcore
    have hrcb : r.cb = q.cb := congrArg (·.2.2.1) hcore
    exact ⟨r, hr, hrs, hrcb.trans (hc.symm.trans (hcb c rfl))⟩

theorem Driven.calls (h : Driven w) {op : Op} {w1 : Wpa} (hpromised : Promised w op)
    (hcalls : Calls w op w1) : Booked w1.gas := by
  cases hcalls with
  | fetchAnqp => exact h.gas
  | scanResults => exact h.gas
  | response env ev g c w1 hevent hcb hresp =>
    obtain ⟨t', out, -, rfl⟩ := anqpRespCb_annotated hresp
    have hgas := (h.event hpromised).1
    rw [hevent] at hgas
    exact hgas

theorem Driven.quiet (h : Driven w) {op : Op} (hpromised : Promised w op) (hstart : Started w op)
    (hquiet : Quiet w op w') : Driven w' := by
  cases hquiet with
  | bss op => exact ⟨h.gas, h.driver⟩
  | event env ev g hevent =>
    obtain ⟨hgas, hdriver⟩ := h.event hpromised
    rw [hevent] at hgas hdriver
    exact ⟨hgas, hdriver fun c hc => nomatch hc⟩
  | response env ev g c w1 hevent hcb hresp =>
    obtain ⟨t', out, -, rfl⟩ := anqpRespCb_annotated hresp
    obtain ⟨hgas, hdriver⟩ := h.event hpromised
    rw [hevent] at hgas hdriver
    refine ⟨hgas, hdriver fun c' hc' => ?_⟩
    obtain rfl := Option.some.inj hc'
    exact hcb
  | request op env dst freq req r hop hreq =>
    have hsent : Sent w.gas (.req env.req dst freq req .anqpRespCb) := by
      rcases hop with ⟨infoIds, rfl⟩ | ⟨stypes, payload, rfl⟩
      · exact fun _ => hstart.2
      · exact fun _ => hstart.2
    exact ⟨h.gas.requested hsent hreq, fun hrun => (h.driver hrun).requested hreq⟩
  | other op w' htable hgas hrun =>
    constructor
    · rw [hgas]
      exact h.gas
    · rw [hgas]
      exact fun hrun' => h.driver (hrun hrun')

theorem reach_driven {start : Wpa} (hinit : start.Initial) (hreach : Reach Started start w) :
    Driven w := by
  induction hreach with
  | init =>
    obtain ⟨-, hgas, hidle, -, -⟩ := hinit
    refine ⟨?_, fun hrun => ?_⟩
    · rw [hgas]
      exact Booked.init
    · rw [hidle] at hrun
      cases hrun
  | step op _ hpromised hstart hexec ih =>
    rcases exec_cases ih.gas.toNumbered op hexec with ⟨w1, hcalls, rfl⟩ | hquiet
    · have hgas := ih.calls hpromised hcalls
      exact .continues hgas (hstart.1 w1 hcalls)
        (interworkingNextAnqpFetch_continues hgas.toNumbered op.answers)
    · exact ih.quiet hpromised hstart hquiet

def toAsk (t : Table) : ℕ := t.bss.countP fun p => eligible (t.heap p) && !tried (t.heap p)

theorem toAsk_markTried {p : Ptr} (hnodup : w.table.bss.Nodup) (hp : nextBss w.table = some p) :
    toAsk (markTried w p).table + 1 = toAsk w.table := by
  obtain ⟨hmem, helig, hnew⟩ := nextBss_some hp
  obtain ⟨l₁, l₂, hsplit⟩ := List.append_of_mem hmem
  have hlist : (markTried w p).table.bss = l₁ ++ p :: l₂ := hsplit
  rw [hsplit] at hnodup
  have hnot : p ∉ l₁ ++ l₂ := (List.nodup_middle.mp hnodup).notMem
  obtain ⟨hself, hheap⟩ := markTried_heap w p
  -- the other entries count as before
  have hothers (l : List Ptr) (hl : p ∉ l) :
      l.countP (fun q => eligible ((markTried w p).table.heap q) &&
        !tried ((markTried w p).table.heap q)) =
      l.countP fun q => eligible (w.table.heap q) && !tried (w.table.heap q) := by
    refine List.countP_congr fun q hq => ?_
    rw [hheap q fun heq => hl (heq ▸ hq)]
  have h₁ := hothers l₁ fun h => hnot (List.mem_append_left _ h)
  have h₂ := hothers l₂ fun h => hnot (List.mem_append_right _ h)
  rw [toAsk, toAsk, hlist, hsplit, List.countP_append, List.countP_append, List.countP_cons,
    List.countP_cons, h₁, h₂]
  simp only [hself, helig, hnew, Bool.not_true, Bool.and_false, Bool.false_eq_true, if_false,
    Bool.not_false, Bool.and_self, if_true]
  omega

def Completed (w w' : Wpa) : Prop :=
  w'.fetchAnqpInProgress = false ∧ .anqpFetchCompleted ∈ w'.out ∧
    (w.networkSelect = true → .selectNetwork ∈ w'.out)

theorem Continues.progress (h : Continues env w w') (hrun : w.fetchAnqpInProgress = true)
    (hnodup : w.table.bss.Nodup) : Completed w w' ∨ toAsk w'.table < toAsk w.table := by
  cases h with
  | idle hidle =>
    rw [hidle] at hrun
    cases hrun
  | completed networkSelect out _ hnone hout hselect => exact .inl ⟨rfl, hout, hselect⟩
  | unbuilt p _ hp | asked p buf r _ hp =>
    have := toAsk_markTried (w := offer w) hnodup hp
    exact .inr (Nat.lt_of_succ_le this.le)

-- As long as the queries of a fetch are really started, a fetch under way has a query outstanding
-- whose timer is armed; and when the timer fires, the fetch is completed or has asked one of the
-- BSSes that were left.
theorem anqp_fetch_has_driver (start : Wpa) (hinit : start.Initial)
    (hreach : Reach Started start w) (hrun : w.fetchAnqpInProgress = true) :
    ∃ q ∈ w.gas.pending, q.cb = .interworkingAnqpRespCb ∧ q.timeoutArmed = true ∧
      ∀ env, ∃ w', exec w (.gas env (.timeout q)) = some w' ∧
        (Completed w w' ∨ toAsk w'.table < toAsk w.table) := by
  have hdriven := reach_driven hinit hreach
  have hsound := reach_sound hinit hreach
  obtain ⟨q, hq, hcb⟩ := hdriven.driver hrun
  refine ⟨q, hq, hcb, hdriven.gas.armed q hq, fun env => ?_⟩
  have hgas : Numbered (gasQueryTimeout w.gas q).1 :=
    hsound.gas.outcome (gasQueryDone_outcome w.gas q .timeout)
  have hcont := interworkingNextAnqpFetch_continues
    (w := { w with gas := (gasQueryTimeout w.gas q).1 }) hgas env
  exact ⟨_, exec_timeout hcb env, hcont.progress hrun hsound.table.nodup⟩

def sampleFetch (env : Env) : Wpa := interworkingFetchAnqp env { table := sampleTable }

theorem anqp_fetch_has_driver_sample :
    (sampleFetch {}).fetchAnqpInProgress = true ∧
      ∃ q ∈ (sampleFetch {}).gas.pending, q.cb = .interworkingAnqpRespCb := by
  have hstart : Started { table := sampleTable } (.fetchAnqp {}) := by
    refine ⟨fun w1 hcalls => ?_, trivial⟩
    cases hcalls
    exact fun _ p _ => ⟨fun _ => rfl, rfl, rfl, rfl, le_refl 0, rfl⟩
  have hreach : Reach Started {} (sampleFetch {}) :=
    .step (.fetchAnqp {}) (reach_sampleTable fun _ _ => ⟨nofun, trivial⟩) trivial hstart rfl
  have hrun : (sampleFetch {}).fetchAnqpInProgress = true := by decide
  obtain ⟨q, hq, hcb, -⟩ := anqp_fetch_has_driver {} initial_empty hreach hrun
  exact ⟨hrun, q, hq, hcb⟩

-- The request cannot be allocated, or its frame cannot be sent: the fetch goes on with no query
-- that could continue it.
theorem anqp_fetch_stuck :
    (Reach (fun _ _ => True) {} (sampleFetch { bufAlloc := false }) ∧
      (sampleFetch { bufAlloc := false }).fetchAnqpInProgress = true ∧
      (sampleFetch { bufAlloc := false }).gas.pending = []) ∧
      Reach (fun _ _ => True) {} (sampleFetch { req := { tx := -1 } }) ∧
      (sampleFetch { req := { tx := -1 } }).fetchAnqpInProgress = true ∧
      ∀ q ∈ (sampleFetch { req := { tx := -1 } }).gas.pending, q.freed = true ∧ q.timeoutArmed = false := by
  have hreach (env : Env) : Reach (fun _ _ => True) {} (sampleFetch env) :=
    .step (.fetchAnqp env) (reach_sampleTable fun _ _ => trivial) trivial trivial rfl
  refine ⟨⟨hreach _, ?_, ?_⟩, hreach _, ?_, ?_⟩
  all_goals decide

end WpaSupplicant.Interworking
