import WpaSupplicant.Interworking.Lemmas

namespace WpaSupplicant.Interworking

open Bss GasQuery

variable {g : Gas Cb} {q : Query Cb} {w : Wpa}

def Backed (r : Gas Cb × Option (Callback Cb)) : Prop :=
  ∀ c, r.2 = some c → c.result = .success → c.advProto.isSome = true ∧ c.resp.isSome = true

theorem backed_none (g : Gas Cb) : Backed (g, none) := fun _ h => nomatch h

theorem gasQueryDone_backed (g : Gas Cb) (q : Query Cb) (result : Result)
    (h : result = .success → q.advProto.isSome = true ∧ q.resp.isSome = true) :
    Backed (gasQueryDone g q result) := by
  intro c hc hresult
  obtain rfl := Option.some.inj hc
  exact h hresult

theorem gasQueryDone_backed_of_ne (g : Gas Cb) (q : Query Cb) {result : Result}
    (h : result ≠ .success) : Backed (gasQueryDone g q result) :=
  gasQueryDone_backed g q result fun heq => absurd heq h

theorem gasQueryTxComebackReq_backed (a : Answers) (g : Gas Cb) (q : Query Cb) :
    Backed (gasQueryTxComebackReq a g q) := by
  unfold gasQueryTxComebackReq
  split
  · exact gasQueryDone_backed_of_ne g q nofun
  dsimp only
  split
  · exact gasQueryDone_backed_of_ne _ _ nofun
  · exact backed_none _

theorem gasQueryRxInitial_backed (a : Answers) (g : Gas Cb) (q : Query Cb) (r : Response) :
    Backed (gasQueryRxInitial a g q r) := by
  unfold gasQueryRxInitial
  split
  · exact gasQueryDone_backed_of_ne g q nofun
  dsimp only
  split
  · exact backed_none _
  split
  · exact gasQueryDone_backed_of_ne _ _ nofun
  · exact gasQueryDone_backed _ _ _ fun _ => ⟨rfl, rfl⟩

theorem gasQueryRxComeback_backed (a : Answers) (g : Gas Cb) (q : Query Cb) (r : Response) :
    Backed (gasQueryRxComeback a g q r) := by
  unfold gasQueryRxComeback
  split
  · exact gasQueryDone_backed_of_ne g q nofun
  rename_i hadv
  rw [not_not] at hadv
  split
  · split
    · exact gasQueryDone_backed_of_ne g q nofun
    · exact backed_none _
  split
  · exact gasQueryDone_backed_of_ne g q nofun
  dsimp only
  split
  · exact gasQueryDone_backed_of_ne _ _ nofun
  split
  · exact gasQueryTxComebackReq_backed a _ _
  refine gasQueryDone_backed _ _ _ fun _ => ⟨?_, rfl⟩
  rw [hadv]
  rfl

theorem gasEvent_backed (a : Answers) (g : Gas Cb) (ev : GasEvent) : Backed (gasEvent a g ev) := by
  cases ev with
  | rx sa data =>
    unfold gasEvent gasQueryRx
    dsimp only
    split
    · exact backed_none g
    split
    · exact backed_none g
    split
    · exact backed_none g
    split
    · exact backed_none g
    split
    · exact backed_none g
    split
    · exact gasQueryDone_backed_of_ne _ _ nofun
    split
    · exact backed_none _
    split
    · exact gasQueryRxComeback_backed a _ _ _
    · exact gasQueryRxInitial_backed a _ _ _
  | timeout q => exact gasQueryDone_backed_of_ne g q nofun
  | comebackTimeout q => exact gasQueryTxComebackReq_backed a _ _
  | cancel dst dialogToken =>
    unfold gasEvent gasQueryCancel
    dsimp only
    split
    · exact gasQueryDone_backed_of_ne g _ nofun
    · exact backed_none g

def HasEntry (t : Table) (c : Callback Cb) : Prop :=
  c.result = .success → ∀ advProto, c.advProto = some advProto → isAnqp advProto = true →
    wpaBssGetBssid t c.dst ≠ none

theorem anqpRespCb_isSome (env : Env) (c : Callback Cb)
    (hbacked : c.result = .success → c.advProto.isSome = true ∧ c.resp.isSome = true) :
    (anqpRespCb env w c).isSome = true ↔ HasEntry w.table c := by
  unfold anqpRespCb HasEntry
  by_cases hresult : c.result = .success
  · obtain ⟨hadv, hresp⟩ := hbacked hresult
    obtain ⟨advProto, hadv⟩ := Option.isSome_iff_exists.mp hadv
    obtain ⟨resp, hresp⟩ := Option.isSome_iff_exists.mp hresp
    simp only [hresult, ne_eq, not_true, if_false, hadv, hresp]
    by_cases hanqp : isAnqp advProto = true
    · simp only [hanqp, Bool.not_true, Bool.false_eq_true, if_false]
      -- what the elements leave behind is looked up as before
      rw [(parseResp_annotated env.copyAlloc c.dst resp.length resp w.table).lookup c.dst]
      cases hget : wpaBssGetBssid w.table c.dst with
      | none => simp [hanqp]
      | some p => simp
    · simp only [Bool.not_eq_true] at hanqp
      simp [hanqp]
  · simp [hresult]

-- The condition on the responses that an operation delivers
def Tolerated (w : Wpa) : Op → Prop
  | .gas env ev => ∀ c, (gasEvent env.gas w.gas ev).2 = some c → HasEntry w.table c
  | _ => True

theorem exec_isSome (w : Wpa) (op : Op) : (exec w op).isSome = true ↔ Tolerated w op := by
  cases op with
  | gas env ev =>
    have hbacked := gasEvent_backed env.gas w.gas ev
    rw [exec, Tolerated]
    generalize gasEvent env.gas w.gas ev = r at hbacked
    obtain ⟨g, cb⟩ := r
    cases cb with
    | none => simp [runCallback]
    | some c =>
      have hiff := anqpRespCb_isSome (w := { w with gas := g }) env c (hbacked c rfl)
      have hrun : (runCallback env { w with gas := g } (some c)).isSome =
          (anqpRespCb env { w with gas := g } c).isSome := by
        rw [runCallback]
        cases c.cb with
        | anqpRespCb => rfl
        | interworkingAnqpRespCb => exact Option.isSome_map
      simp only [hrun, hiff, Option.some.injEq, forall_eq']
  | _ => exact ⟨fun _ => trivial, fun _ => rfl⟩

-- A run; `none` once a null pointer was followed
def execAll : Wpa → List Op → Option Wpa
  | w, [] => some w
  | w, op :: ops => (exec w op).bind fun w' => execAll w' ops

-- The condition along a run
def AllTolerated : Wpa → List Op → Prop
  | _, [] => True
  | w, op :: ops => Tolerated w op ∧ ∀ w', exec w op = some w' → AllTolerated w' ops

-- A run of queries, responses and changes of the table gets by without the entry of a BSS that is
-- gone if and only if each successful ANQP response finds an entry for its peer; and what a
-- response writes to is the entry that was found.
theorem anqp_responses_tolerate_removal (w : Wpa) (ops : List Op) :
    ((execAll w ops).isSome = true ↔ AllTolerated w ops) ∧
      ∀ env w c w1, Interworking.anqpRespCb env w c = some w1 →
        ∀ p, w1.table.heap p ≠ w.table.heap p → wpaBssGetBssid w.table c.dst = some p := by
  constructor
  · induction ops generalizing w with
    | nil => simp [execAll, AllTolerated]
    | cons op ops ih =>
      rw [execAll, AllTolerated, ← exec_isSome]
      cases hexec : exec w op with
      | none => simp
      | some w' => simp [ih w']
  · intro env w c w1 hresp p hne
    obtain ⟨t', out, hann, rfl⟩ := anqpRespCb_annotated hresp
    by_contra hget
    exact hne (hann.others p hget)

def sampleQueryRun : List Op :=
  sampleScan.map .bss ++ [.anqpSendReq {} 7 [anqpVenueName]]

def sampleResponse : Op := .gas {} (.rx 7 [11, 0, 0, 0, 0, 0, 108, 2, 0x7f, 0, 0, 0])

-- The table is flushed in between: the response is successful, finds no entry and is written to a
-- null pointer.
theorem response_without_entry :
    ((execAll {} (sampleQueryRun ++ [.bss .flush])).any fun w =>
        wpaBssGetBssid w.table 7 = none && w.gas.pending.length = 1) = true ∧
      (execAll {} (sampleQueryRun ++ [sampleResponse])).isSome = true ∧
      (execAll {} (sampleQueryRun ++ [.bss .flush, sampleResponse])).isNone = true := by
  decide

end WpaSupplicant.Interworking
