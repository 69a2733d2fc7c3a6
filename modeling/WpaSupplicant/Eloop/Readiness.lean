import WpaSupplicant.Eloop.Sockets
import WpaSupplicant.Lib.Machine

namespace WpaSupplicant.Eloop.Sockets

open Lib.Machine

variable {l : LoopState} {type other : EventType} {t : SockTable}

@[simp] theorem getSockTable_set :
    (l.setSockTable type t).eloopGetSockTable type = t := by
  cases type <;> rfl

theorem getSockTable_set_ne (h : other ≠ type) :
    (l.setSockTable type t).eloopGetSockTable other = l.eloopGetSockTable other := by
  cases type <;> cases other <;> first | rfl | exact absurd rfl h

@[simp] theorem fds_set : (l.setSockTable type t).fds other = l.fds other := by
  cases type <;> cases other <;> rfl

@[simp] theorem selected_set : (l.setSockTable type t).selected other = l.selected other := by
  cases type <;> cases other <;> rfl

@[simp] theorem phase_set : (l.setSockTable type t).phase = l.phase := by
  cases type <;> rfl

@[simp] theorem res_set : (l.setSockTable type t).res = l.res := by
  cases type <;> rfl

@[simp] theorem calls_set : (l.setSockTable type t).calls = l.calls := by
  cases type <;> rfl

-- The order in which the tables are dispatched
def EventType.rank : EventType → ℕ
  | .read => 0
  | .write => 1
  | .exception => 2

theorem EventType.rank_injective (h : type.rank = other.rank) : type = other := by
  cases type <;> cases other <;> first | rfl | simp [EventType.rank] at h

-- `select` has reported descriptors in this round, and the dispatch of the table is yet to begin.
def LoopState.awaits (l : LoopState) (type : EventType) : Bool :=
  match l.phase with
  | .head => false
  | .signals _ | .signalHandler _ | .timeouts | .timeoutHandler => decide (0 < l.res)
  | .dispatch t _ | .sockHandler t _ => decide (t.rank < type.rank)

-- A handler registers no descriptor that was reported ready in a table that is yet to be
-- dispatched.
def RegistersFresh (l : LoopState) : Op → Prop
  | .registerSock sock type _ _ _ _ => l.awaits type → sock ∉ l.fds type
  | _ => True

instance (l : LoopState) : DecidablePred (RegistersFresh l)
  | .registerSock sock type _ _ _ _ =>
    inferInstanceAs (Decidable (l.awaits type = true → sock ∉ l.fds type))
  | .unregisterSock .. | .registerSignal .. | .registerTimeout .. | .cancelTimeout .. |
    .terminate | .signal _ | .handlerReturns | .select .. | .turn _ =>
      inferInstanceAs (Decidable True)

-- The entry was in its table when `select` reported its descriptor.
def Call.Own (c : Call) : Prop := c.sock ∈ c.selected ∧ c.sock.sock ∈ c.ready

instance (c : Call) : Decidable c.Own := inferInstanceAs (Decidable (_ ∧ _))

-- The entries of a table whose descriptors were reported were in it at that time.
def OwnReadiness (l : LoopState) (type : EventType) : Prop :=
  ∀ s ∈ (l.eloopGetSockTable type).table, s.sock ∈ l.fds type → s ∈ l.selected type

def Pending (l : LoopState) (type : EventType) : Prop :=
  match l.phase with
  | .head => False
  | .signals _ | .signalHandler _ | .timeouts | .timeoutHandler => 0 < l.res
  | .dispatch t _ => t.rank ≤ type.rank
  | .sockHandler t _ =>
    t.rank < type.rank ∨ t = type ∧ (l.eloopGetSockTable type).changed = false

structure Inv (l : LoopState) : Prop where
  calls : ∀ c ∈ l.calls, c.Own
  pending : ∀ type, Pending l type → OwnReadiness l type

theorem Inv.of_same {l' : LoopState} (h : Inv l) (hcalls : l'.calls = l.calls)
    (htable : ∀ type, l'.eloopGetSockTable type = l.eloopGetSockTable type)
    (hfds : ∀ type, l'.fds type = l.fds type) (hselected : ∀ type, l'.selected type = l.selected type)
    (hpending : ∀ type, Pending l' type → Pending l type) : Inv l' := by
  refine ⟨fun c hc => h.calls c (hcalls ▸ hc), fun type hp s hs hready => ?_⟩
  rw [htable] at hs
  rw [hfds] at hready
  rw [hselected]
  exact h.pending type (hpending type hp) s hs hready

-- A handler changes a table: what it leaves in a table that waits was there, and a change of the
-- table that is dispatched ends its dispatch.
theorem Inv.change (h : Inv l) (hhandlers : l.phase.handlers = true)
    (hold : ∀ s ∈ t.table, s ∈ (l.eloopGetSockTable type).table ∨
      (l.awaits type → s.sock ∉ l.fds type)) (hchanged : t.changed = true) :
    Inv (l.setSockTable type t) := by
  refine ⟨fun c hc => h.calls c (by simpa using hc), fun u hp s hs hready => ?_⟩
  simp only [fds_set, selected_set] at hready ⊢
  by_cases hu : u = type
  · subst hu
    rw [getSockTable_set] at hs
    have hawaits : l.awaits u := by
      cases hphase : l.phase with
      | sockHandler v i =>
        simp only [Pending, phase_set, hphase, getSockTable_set, hchanged, Bool.true_eq_false,
          and_false, or_false] at hp
        simpa only [LoopState.awaits, hphase, decide_eq_true_eq] using hp
      | _ => simp_all [Pending, LoopState.awaits, Phase.handlers]
    have hpending : Pending l u := by
      cases hphase : l.phase with
      | sockHandler v i =>
        simp only [LoopState.awaits, hphase, decide_eq_true_eq] at hawaits
        simp only [Pending, hphase]
        exact .inl hawaits
      | _ => simp_all [Pending, LoopState.awaits, Phase.handlers]
    rcases hold s hs with hs | hfresh
    · exact h.pending u hpending s hs hready
    · exact absurd hready (hfresh hawaits)
  · rw [getSockTable_set_ne hu] at hs
    refine h.pending u ?_ s hs hready
    simp only [Pending, phase_set, getSockTable_set_ne hu, res_set] at hp
    exact hp

theorem Inv.addSock {alloc : Bool} {sock : ℤ} {handler eloopData userData : Ptr} (h : Inv l)
    (hhandlers : l.phase.handlers = true) (hfresh : l.awaits type → sock ∉ l.fds type) :
    Inv (eloopSockTableAddSock l type alloc sock handler eloopData userData).2 := by
  rw [eloopSockTableAddSock]
  split
  · exact h
  have hchange : Inv (l.setSockTable type
      { table := (l.eloopGetSockTable type).table ++
          [⟨l.next, sock, eloopData, userData, handler⟩]
        changed := true }) := h.change hhandlers ?_ rfl
  · exact hchange.of_same rfl (fun u => by cases u <;> rfl) (fun u => by cases u <;> rfl)
      (fun u => by cases u <;> rfl) (fun u hu => hu)
  · intro s hs
    rcases List.mem_append.mp hs with hs | hs
    · exact .inl hs
    · rw [List.mem_singleton.mp hs]
      exact .inr hfresh

theorem Inv.removeSock {sock : ℤ} (h : Inv l) (hhandlers : l.phase.handlers = true) :
    Inv (eloopSockTableRemoveSock l type sock) := by
  simp only [eloopSockTableRemoveSock]
  split
  · refine h.change hhandlers ?_ rfl
    intro s hs
    exact .inl (List.mem_of_mem_eraseP hs)
  · exact h

theorem Inv.startDispatch (hcalls : ∀ c ∈ l.calls, c.Own)
    (hown : ∀ u, type.rank ≤ u.rank → OwnReadiness l u) : Inv (startDispatch l type) := by
  refine ⟨fun c hc => hcalls c (by simpa [Sockets.startDispatch] using hc), ?_⟩
  intro u hp s hs hready
  have hrank : type.rank ≤ u.rank := hp
  have hs' : s ∈ (l.eloopGetSockTable u).table := by cases type <;> cases u <;> exact hs
  have hready' : s.sock ∈ l.fds u := by cases type <;> cases u <;> exact hready
  have hmem := hown u hrank s hs' hready'
  cases type <;> cases u <;> exact hmem

theorem Inv.toHead (hcalls : ∀ c ∈ l.calls, c.Own) : Inv { l with phase := .head } :=
  ⟨hcalls, fun _ hp => absurd hp id⟩

theorem Inv.nextTable (hcalls : ∀ c ∈ l.calls, c.Own)
    (hown : ∀ u, type.rank < u.rank → OwnReadiness l u) : Inv (nextTable l type) := by
  cases type with
  | read => exact Inv.startDispatch hcalls hown
  | write => exact Inv.startDispatch hcalls hown
  | exception => exact Inv.toHead hcalls

theorem Inv.afterTimeouts (hcalls : ∀ c ∈ l.calls, c.Own)
    (hown : ∀ u, 0 < l.res → OwnReadiness l u) : Inv (afterTimeouts l) := by
  rw [Sockets.afterTimeouts]
  split
  · exact Inv.toHead hcalls
  · rename_i hres
    exact Inv.startDispatch hcalls fun u _ => hown u (by omega)

theorem Inv.select {res : ℤ} {intr : Bool} {readable writable exceptional : List ℤ} (h : Inv l) :
    Inv (eloopSelect l res intr readable writable exceptional) := by
  rw [eloopSelect]
  split
  · exact h
  rw [startSignals]
  -- what is in a table now is what was in it at `select`
  split <;> refine ⟨h.calls, fun u _ s hs _ => ?_⟩ <;> cases u <;> exact hs

theorem Inv.signalTurn {i : ℕ} (h : Inv l) (hphase : l.phase = .signals i) :
    Inv (signalTurn l i) := by
  have hpending (u : EventType) (hres : 0 < l.res) : Pending l u := by
    simpa only [Pending, hphase] using hres
  rw [Sockets.signalTurn]
  split
  · exact h.of_same rfl (fun _ => rfl) (fun _ => rfl) (fun _ => rfl) hpending
  split
  · exact h.of_same rfl (fun _ => rfl) (fun _ => rfl) (fun _ => rfl) hpending
  · exact h.of_same rfl (fun _ => rfl) (fun _ => rfl) (fun _ => rfl) hpending

theorem Inv.timeoutTurn {now : OsTime} (h : Inv l) (hphase : l.phase = .timeouts) :
    Inv (timeoutTurn l now) := by
  have hpending (u : EventType) (hres : 0 < l.res) : Pending l u := by
    simpa only [Pending, hphase] using hres
  rw [Sockets.timeoutTurn]
  split
  · exact h.of_same rfl (fun _ => rfl) (fun _ => rfl) (fun _ => rfl) hpending
  · refine Inv.afterTimeouts h.calls fun u hres => ?_
    exact h.pending u (hpending u hres)

theorem Inv.dispatchTurn {i : ℕ} (h : Inv l) (hphase : l.phase = .dispatch type i) :
    Inv (dispatchTurn l type i) := by
  have hpending (u : EventType) (hrank : type.rank ≤ u.rank) : Pending l u := by
    simpa only [Pending, hphase] using hrank
  have hown (u : EventType) (hrank : type.rank ≤ u.rank) : OwnReadiness l u :=
    h.pending u (hpending u hrank)
  rw [Sockets.dispatchTurn]
  split
  · exact Inv.nextTable h.calls fun u hrank => hown u hrank.le
  rename_i s hs
  split
  · rename_i hready
    refine ⟨?_, ?_⟩
    · intro c hc
      rcases List.mem_append.mp hc with hc | hc
      · exact h.calls c hc
      · rw [List.mem_singleton.mp hc]
        exact ⟨hown type le_rfl s (List.mem_of_getElem? hs) hready, hready⟩
    · intro u hp
      have hrank : type.rank ≤ u.rank := by
        rcases hp with hlt | ⟨heq, -⟩
        · exact hlt.le
        · exact heq ▸ le_rfl
      exact hown u hrank
  · exact h.of_same rfl (fun _ => rfl) (fun _ => rfl) (fun _ => rfl) hpending

theorem Inv.turn {now : OsTime} (h : Inv l) : Inv (turn l now) := by
  rw [Sockets.turn]
  split
  · rename_i i hphase
    exact h.signalTurn hphase
  · rename_i hphase
    exact h.timeoutTurn hphase
  · rename_i type i hphase
    exact h.dispatchTurn hphase
  · exact h

theorem Inv.handlerReturns (h : Inv l) : Inv (handlerReturns l) := by
  rw [Sockets.handlerReturns]
  split
  · rename_i i hphase
    refine h.of_same rfl (fun _ => rfl) (fun _ => rfl) (fun _ => rfl) fun u hres => ?_
    simpa only [Pending, hphase] using hres
  · rename_i hphase
    refine Inv.afterTimeouts h.calls fun u hres => h.pending u ?_
    simpa only [Pending, hphase] using hres
  · rename_i type i hphase
    split
    · refine Inv.nextTable h.calls fun u hrank => h.pending u ?_
      simp only [Pending, hphase]
      exact .inl hrank
    rename_i hchanged
    refine h.of_same rfl (fun _ => rfl) (fun _ => rfl) (fun _ => rfl) fun u hp => ?_
    have hrank : type.rank ≤ u.rank := hp
    simp only [Pending, hphase]
    rcases hrank.lt_or_eq with hlt | heq
    · exact .inl hlt
    · obtain rfl := EventType.rank_injective heq
      exact .inr ⟨rfl, by simpa using hchanged⟩
  · exact h

theorem Inv.request {op : Op} (h : Inv l) (hhandlers : l.phase.handlers = true)
    (hfresh : RegistersFresh l op) : Inv (request l op) := by
  cases op with
  | registerSock sock type alloc handler eloopData userData => exact h.addSock hhandlers hfresh
  | unregisterSock sock type => exact h.removeSock hhandlers
  | registerSignal alloc sig handler userData =>
    simp only [Sockets.request, eloopRegisterSignal]
    split
    · exact h
    · exact h.of_same rfl (fun _ => rfl) (fun _ => rfl) (fun _ => rfl) fun _ hp => hp
  | registerTimeout alloc clock secs usecs handler eloopData userData =>
    exact h.of_same rfl (fun _ => rfl) (fun _ => rfl) (fun _ => rfl) fun _ hp => hp
  | cancelTimeout handler eloopData userData =>
    exact h.of_same rfl (fun _ => rfl) (fun _ => rfl) (fun _ => rfl) fun _ hp => hp
  | terminate => exact h.of_same rfl (fun _ => rfl) (fun _ => rfl) (fun _ => rfl) fun _ hp => hp
  | _ => exact h

theorem Inv.exec {op : Op} (h : Inv l) (hfresh : RegistersFresh l op) : Inv (exec l op) := by
  cases op with
  | signal sig => exact h.of_same rfl (fun _ => rfl) (fun _ => rfl) (fun _ => rfl) fun _ hp => hp
  | handlerReturns => exact h.handlerReturns
  | select res intr readable writable exceptional =>
    simp only [Sockets.exec]
    split
    · exact h.select
    · exact h
  | turn now => exact h.turn
  | _ =>
    simp only [Sockets.exec]
    split
    · rename_i hhandlers
      exact h.request hhandlers hfresh
    · exact h

-- The state before `eloop_run` is called for the first time
def LoopState.Initial (l : LoopState) : Prop := l.phase = .head ∧ l.calls = []

instance (l : LoopState) : Decidable l.Initial := inferInstanceAs (Decidable (_ ∧ _))

-- In a run in which no handler registers, in a table that is yet to be dispatched in the round, a
-- descriptor that `select` reported for it, every handler of a socket that is called belongs to a
-- registration that was in its table when `select` reported its descriptor in the round.
theorem sock_handlers_own_readiness (start : LoopState) (hinit : start.Initial)
    (hrun : Runs exec RegistersFresh start l) : ∀ c ∈ l.calls, c.Own := by
  have hstart : Inv start :=
    ⟨by simp [hinit.2], fun u hp => by simp [Pending, hinit.1] at hp⟩
  exact (hrun.rule hstart fun s op hs hfresh => hs.exec hfresh).calls

-- A timeout handler registers a socket that is not ready, and the reader that is ready takes
-- itself out and in again; the next round calls it once more.
def sampleSteps : List Op :=
  [.registerSock 5 .read true 100 1 2, .registerTimeout true (some ⟨10, 0⟩) 0 0 7 1 2,
    .select 1 false [5] [] [], .turn ⟨10, 0⟩, .registerSock 6 .read true 101 1 3, .handlerReturns,
    .turn ⟨10, 0⟩, .unregisterSock 5 .read, .registerSock 5 .read true 102 1 2, .handlerReturns,
    .turn ⟨10, 0⟩, .turn ⟨10, 0⟩, .select 2 false [5, 6] [] [], .turn ⟨10, 0⟩, .turn ⟨10, 0⟩]

theorem sock_handlers_own_readiness_sample :
    (sampleSteps.foldl exec {}).calls.map (fun c => c.sock.serial) = [0, 1] ∧
      ∀ c ∈ (sampleSteps.foldl exec {}).calls, c.Own :=
  ⟨by decide,
    sock_handlers_own_readiness {} (by decide) (Runs.of_list sampleSteps (by decide))⟩

-- The handler of a timeout closes a socket that `select` has just reported and opens another one,
-- which gets the same number: the handler of the new registration is called.
def staleSteps : List Op :=
  [.registerSock 5 .read true 100 1 2, .registerTimeout true (some ⟨10, 0⟩) 0 0 7 1 2,
    .select 1 false [5] [] [], .turn ⟨10, 0⟩, .unregisterSock 5 .read,
    .registerSock 5 .read true 101 1 3, .handlerReturns, .turn ⟨10, 0⟩]

theorem sock_handler_stale_readiness :
    (staleSteps.foldl exec {}).calls.map (fun c => (c.sock.serial, c.sock.handler)) = [(1, 101)] ∧
      ∀ c ∈ (staleSteps.foldl exec {}).calls, c.sock ∉ c.selected := by
  decide

end WpaSupplicant.Eloop.Sockets
