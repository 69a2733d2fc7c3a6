import WpaSupplicant.Ap.Hs20.Step
import WpaSupplicant.Ap.StaTable.Lemmas

namespace WpaSupplicant.Ap

open Lib.Machine

variable {conf : HsConfig} {s s' : HsAp} {op : HsOp} {d : DialogRef} {dia : Dialog}

def HsAp.initial (bss : BssConfig) : HsAp := { hapd := Hapd.initial bss }

theorem HsInv.initial (bss : BssConfig) : HsInv (HsAp.initial bss) := by
  refine ⟨StaInv.initial bss, fun d dia hdia => ?_, fun d dia hdia => ?_⟩ <;>
    simp [HsAp.dialog, HsAp.initial, Hapd.initial] at hdia

theorem runs_hsInv {ok : HsAp → HsOp → Prop} {start : HsAp} (hstart : HsInv start)
    (hrun : Runs (hsExec conf) ok start s) : HsInv s :=
  hrun.rule hstart fun _ op hs _ => hs.stepped (hsExec_stepped hs op)

section Promises

def Holds (s : HsAp) (d : DialogRef) (addr : Addr) (dialogToken : UInt8) (serial : ℕ) : Prop :=
  s.hapd.addrOf d.sta = some addr ∧
    ∃ dia, s.dialog d = some dia ∧ dia.valid = true ∧ dia.dialogToken = dialogToken ∧
      dia.serial = serial

-- The step sends the last fragment of the exchange or an error for it, it runs the timer of its
-- slot, or it removes the station.
def Releases (conf : HsConfig) (d : DialogRef) (serial : ℕ) (s : HsAp) (op : HsOp) : Prop :=
  (∃ o, (hsExec conf s op).sent = s.sent ++ [o] ∧ o.serial = some serial ∧ o.msg.ends = true) ∨
    (∃ t, op = .timer t ∧ t ∈ s.timers ∧ t.dialog = d) ∨ (hsExec conf s op).hapd.mem d.sta = none

variable {addr : Addr} {dialogToken : UInt8} {serial : ℕ}

theorem Holds.stepped (h : Holds s d addr dialogToken serial) (hinv : HsInv s)
    (hserves : Serves conf s op) (hnot : ¬ Releases conf d serial s op) :
    Holds (hsExec conf s op) d addr dialogToken serial := by
  obtain ⟨haddr, dia, hdia, hvalid, htoken, hserial⟩ := h
  have hstep : Stepped conf s op (hsExec conf s op) := hsExec_stepped hinv op
  have hthere : (hsExec conf s op).hapd.mem d.sta ≠ none := fun hgone => hnot (.inr (.inr hgone))
  refine ⟨(hstep.addr _ _ haddr).resolve_right hthere, ?_⟩
  cases hstep.change d with
  | same heq => exact ⟨dia, heq.trans hdia, hvalid, htoken, hserial⟩
  | hosted hold _ =>
    rw [hdia] at hold
    cases hold
  | opened sa dia' hop hold =>
    rw [hdia] at hold
    rcases hold with hold | hold
    · cases hold
    · cases hold
      cases hvalid
  | kept dia₁ dia' hfor hold h' _ hvalid' htoken' hserial' =>
    rw [hdia] at hold
    cases hold
    exact ⟨dia', h', hvalid', htoken'.trans htoken, hserial'.trans hserial⟩
  | ended dia₁ o hfor hold h' hsent ho hends =>
    rw [hdia] at hold
    cases hold
    exact absurd (.inl ⟨o, hsent, hserial ▸ ho, hends⟩) hnot
  | dropped dia₁ hfor hold h' hop => exact absurd hserves hop
  | expired t hop ht hd h' => exact absurd (.inr (.inl ⟨t, hop, ht, hd⟩)) hnot
  | removed h' =>
    have hgone : (hsExec conf s op).hapd.mem d.sta = none := by simpa [HsAp.dialog] using h'
    exact absurd hgone hthere

theorem comebackReq_sent (hinv : HsInv s) (h : Holds s d addr dialogToken serial) (a : HsAnswers)
    (o : Sent) (ho : (hsExec conf s (.comebackReq addr dialogToken a)).sent = s.sent ++ [o])
    (fragId : UInt8) (more : Bool) (payload : Octets) :
    o.msg ≠ .comebackResp dialogToken statusNoOutstandingGasReq fragId more payload := by
  obtain ⟨haddr, dia, hdia, hvalid, htoken, -⟩ := h
  have hfound := hs20DialogFind_of_valid hinv.table haddr hdia hvalid htoken
  obtain ⟨d', hd'⟩ := Option.ne_none_iff_exists'.mp hfound
  obtain ⟨-, dia₀, hdia₀, -⟩ := hs20DialogFind_some hinv.table hd'
  simp only [hsExec, hs20RxGasComebackReq, hd', hdia₀, Option.getD_some] at ho
  split at ho
  · split at ho
    · obtain rfl : Sent.mk _ _ _ = o := by simpa [HsAp.sendAction, hs20DialogClear] using ho
      simp [statusGasRespNotReceived, statusNoOutstandingGasReq]
    · simp [hs20DialogClear] at ho
  split at ho
  · simp [hs20ClearCachedIes, hs20DialogClear] at ho
  split at ho
  · simp [hs20ClearCachedIes, hs20DialogClear] at ho
  split at ho
  all_goals
    obtain rfl : Sent.mk _ _ _ = o := by simpa [HsAp.sendAction, hs20DialogClear] using ho
    simp [statusNoOutstandingGasReq]

-- When a station is told to come back, a valid dialog for it exists, which stays until the last fragment
-- or an error is sent for it, its timer runs or the station entry is removed; until then a comeback
-- request is not answered with "no outstanding request".
theorem gas_comeback_served (bss : BssConfig)
    (hrun : Runs (hsExec conf) (Serves conf) (HsAp.initial bss) s) (hop : Serves conf s op)
    (o : Sent) (ho : (hsExec conf s op).sent = s.sent ++ [o]) (hpromise : o.msg.promises = true) :
    ∃ d serial, o.serial = some serial ∧
      Holds (hsExec conf s op) d o.dst o.msg.dialogToken serial ∧
      ∀ s', Runs (hsExec conf) (fun s op => Serves conf s op ∧ ¬ Releases conf d serial s op)
          (hsExec conf s op) s' →
        Holds s' d o.dst o.msg.dialogToken serial ∧
          ∀ a o', (hsExec conf s' (.comebackReq o.dst o.msg.dialogToken a)).sent = s'.sent ++ [o'] →
            ∀ fragId more payload, o'.msg ≠
              .comebackResp o.msg.dialogToken statusNoOutstandingGasReq fragId more payload := by
  have hinv : HsInv s := runs_hsInv (HsInv.initial bss) hrun
  have hstep : Stepped conf s op (hsExec conf s op) := hsExec_stepped hinv op
  have hinv' := hinv.stepped hstep
  have hopened : ∃ d dia, (hsExec conf s op).dialog d = some dia ∧ dia.valid = true ∧
      dia.dialogToken = o.msg.dialogToken ∧ o.serial = some dia.serial ∧
      (hsExec conf s op).hapd.addrOf d.sta = some o.dst := by
    rcases hstep.sent with hnone | ⟨o', ho', hcase⟩
    · rw [hnone] at ho
      simp at ho
    obtain rfl : o' = o := by
      rw [ho'] at ho
      simpa using ho
    exact (hcase hpromise).resolve_left hop.1
  obtain ⟨d, dia, hdia, hvalid, htoken, hserial, haddr⟩ := hopened
  have hholds : Holds (hsExec conf s op) d o.dst o.msg.dialogToken dia.serial :=
    ⟨haddr, dia, hdia, hvalid, htoken, rfl⟩
  refine ⟨d, dia.serial, hserial, hholds, fun s' hrun' => ?_⟩
  have hboth : HsInv s' ∧ Holds s' d o.dst o.msg.dialogToken dia.serial := by
    refine hrun'.rule (I := fun s' => HsInv s' ∧ Holds s' d o.dst o.msg.dialogToken dia.serial)
      ⟨hinv', hholds⟩ ?_
    rintro u op' ⟨hu, hholds⟩ ⟨hserves, hnot⟩
    exact ⟨hu.stepped (hsExec_stepped hu op'), hholds.stepped hu hserves hnot⟩
  refine ⟨hboth.2, fun a o' ho' fragId more payload => ?_⟩
  exact comebackReq_sent hboth.1 hboth.2 a o' ho' fragId more payload

def sampleConf : HsConfig := { gasFragLimit := 2, payload := fun _ _ => ⟨[1, 2, 3, 4], by decide⟩ }

def sampleStation : Addr := 0x020000000005

theorem gas_comeback_served_sample :
    ∃ d serial, Holds (hsExec sampleConf (HsAp.initial {})
      (.initialReq sampleStation 7 { request := 1 } true {})) d sampleStation 7 serial := by
  have hserves : Serves sampleConf (HsAp.initial {})
      (.initialReq sampleStation 7 { request := 1 } true {}) := ⟨id, trivial⟩
  obtain ⟨d, serial, -, hholds, -⟩ := gas_comeback_served {} .init hserves
    ⟨sampleStation, .initialResp 7 0 1 [], some 0⟩ (by decide) rfl
  exact ⟨d, serial, hholds⟩

-- A query goes to the external server, and the station is told to come back; when the answer is
-- in, it is told so again, and the dialog is cleared.
def brokenPromise : List HsOp :=
  [.initialReq sampleStation 7 { request := 4, remoteRequest := 4, remoteDelay := 200 } true {},
    .remoteAnswer sampleStation 7 4 [9], .txGasResponse sampleStation 7 {}]

theorem gas_comeback_not_served :
    (brokenPromise.foldl (hsExec sampleConf) (HsAp.initial {})).sent.getLast? =
        some ⟨sampleStation, .initialResp 7 0 210 [], some 0⟩ ∧
      hs20DialogFind (brokenPromise.foldl (hsExec sampleConf) (HsAp.initial {})) sampleStation 7 =
        none ∧
      (hsExec sampleConf (brokenPromise.foldl (hsExec sampleConf) (HsAp.initial {}))
        (.comebackReq sampleStation 7 {})).sent.getLast? =
        some ⟨sampleStation, .comebackResp 7 statusNoOutstandingGasReq 0 false [], none⟩ := by
  decide

end Promises

-- A station has no two valid dialogs of one token, and a timer is one of an exchange that its slot
-- still holds, at a station that is still there.
structure DialogTable (s : HsAp) : Prop where
  unique : ∀ d d' dia dia', d.sta = d'.sta → s.dialog d = some dia → s.dialog d' = some dia' →
    dia.valid = true → dia'.valid = true → dia.dialogToken = dia'.dialogToken → d = d'
  timers : ∀ t ∈ s.timers, t.dialog.sta ∈ s.hapd.staList ∧
    ∃ dia, s.dialog t.dialog = some dia ∧ dia.valid = true ∧ dia.serial = t.serial

-- The slots of a station are all in use.
def NoSlot (s : HsAp) (addr : Addr) : Prop :=
  ∀ sta e, apGetSta s.hapd addr = some sta → s.hapd.mem sta = some e →
    ∀ i, (e.ext.hs20Dialog i).valid = true

-- The operation opens no second dialog of a token, and it is no call of `hs20_tx_gas_response` that
-- arms a timer.
def OpensOnce (conf : HsConfig) (s : HsAp) (op : HsOp) : Prop :=
  ¬ ArmsTimer conf s op ∧
    ∀ sa dialogToken, opensDialog conf op = some (sa, dialogToken) →
      hs20DialogFind s sa dialogToken = none ∨ NoSlot s sa

theorem Stepped.valid (h : Stepped conf s op s') (hdia : s'.dialog d = some dia)
    (hvalid : dia.valid = true) :
    (∃ dia₀, s.dialog d = some dia₀ ∧ dia₀.valid = true ∧ dia₀.dialogToken = dia.dialogToken) ∨
      ∃ sa, opensDialog conf op = some (sa, dia.dialogToken) ∧ s'.hapd.addrOf d.sta = some sa ∧
        (s.dialog d = none ∨ s.dialog d = some {}) ∧
        ∀ d', d' ≠ d → s'.dialog d' = s.dialog d' ∨ s'.dialog d' = some {} := by
  cases h.change d with
  | same heq => exact .inl ⟨dia, heq ▸ hdia, hvalid, rfl⟩
  | opened sa dia' hop hold h' _ _ _ haddr honly =>
    rw [hdia] at h'
    cases h'
    exact .inr ⟨sa, hop, haddr, hold, honly⟩
  | kept dia₁ dia' hfor hold h' hvalid₁ _ htoken =>
    rw [hdia] at h'
    cases h'
    exact .inl ⟨dia₁, hold, hvalid₁, htoken.symm⟩
  | expired t hop ht hd h' =>
    rw [hdia] at h'
    rcases h' with h' | h'
    · cases h'
    · cases h'
      cases hvalid
  | removed h' =>
    rw [hdia] at h'
    cases h'
  | hosted _ h' | ended _ _ _ _ h' | dropped _ _ _ h' =>
    rw [hdia] at h'
    cases h'
    cases hvalid

theorem Stepped.no_second {d' : DialogRef} {dia' : Dialog} {dialogToken : UInt8} {sa : Addr}
    (h : Stepped conf s op s') (hinv : HsInv s) (honce : OpensOnce conf s op)
    (hsta : d.sta = d'.sta) (hdia' : s'.dialog d' = some dia') (hvalid' : dia'.valid = true)
    (htoken : dia'.dialogToken = dialogToken)
    (hop : opensDialog conf op = some (sa, dialogToken))
    (haddr : s'.hapd.addrOf d.sta = some sa) (hbefore : s.dialog d = none ∨ s.dialog d = some {})
    (honly : ∀ d', d' ≠ d → s'.dialog d' = s.dialog d' ∨ s'.dialog d' = some {}) : d = d' := by
  by_contra hne
  rcases honly d' (Ne.symm hne) with hold | hnew
  · -- the other one was there before, at the same station
    rw [hdia'] at hold
    obtain ⟨e, he, -⟩ := dialog_eq_some.1 hold.symm
    have hwas : s.hapd.addrOf d'.sta = some e.addr := by simp [Hapd.addrOf, he]
    have hthere : s'.hapd.mem d'.sta ≠ none := by
      obtain ⟨e', he', -⟩ := dialog_eq_some.1 hdia'
      rw [he']
      exact Option.some_ne_none e'
    have hafter := (h.addr _ _ hwas).resolve_right hthere
    rw [← hsta, haddr] at hafter
    have hsa : e.addr = sa := (Option.some.inj hafter).symm
    rcases honce.2 sa dialogToken hop with hnone | hfull
    · rw [hsa] at hwas
      exact hs20DialogFind_of_valid hinv.table hwas hold.symm hvalid' htoken hnone
    -- the slot that was taken was not in use
    have hget : apGetSta s.hapd sa = some d'.sta := hinv.table.apGetSta_eq_some.2 ⟨e, he, hsa⟩
    have hslot := hfull d'.sta e hget he d.slot
    have hthis : s.dialog d = some (e.ext.hs20Dialog d.slot) :=
      dialog_eq_some.2 ⟨e, hsta ▸ he, rfl⟩
    rw [hthis] at hbefore
    rcases hbefore with hbefore | hbefore
    · cases hbefore
    · rw [Option.some.inj hbefore] at hslot
      cases hslot
  · rw [hdia'] at hnew
    cases hnew
    cases hvalid'

theorem DialogTable.stepped (htable : DialogTable s) (hinv : HsInv s) (hnone : s.timers = [])
    (honce : OpensOnce conf s op) :
    DialogTable (hsExec conf s op) ∧ (hsExec conf s op).timers = [] := by
  have hstep : Stepped conf s op (hsExec conf s op) := hsExec_stepped hinv op
  have htimers : (hsExec conf s op).timers = [] := by
    refine List.eq_nil_iff_forall_not_mem.mpr fun t ht => ?_
    rcases hstep.timers t ht with hold | hcomes
    · rw [hnone] at hold
      cases hold
    · exact honce.1 hcomes
  refine ⟨⟨?_, ?_⟩, htimers⟩
  · intro d d' dia dia' hsta hdia hdia' hvalid hvalid' htoken
    rcases hstep.valid hdia hvalid with ⟨dia₀, hdia₀, hvalid₀, htoken₀⟩ |
      ⟨sa, hop, haddr, hold, honly⟩
    · rcases hstep.valid hdia' hvalid' with ⟨dia₁, hdia₁, hvalid₁, htoken₁⟩ |
        ⟨sa, hop, haddr, hold, honly⟩
      · exact htable.unique d d' dia₀ dia₁ hsta hdia₀ hdia₁ hvalid₀ hvalid₁
          (by rw [htoken₀, htoken₁, htoken])
      · exact (hstep.no_second hinv honce hsta.symm hdia hvalid htoken hop haddr hold honly).symm
    · exact hstep.no_second hinv honce hsta hdia' hvalid' htoken.symm hop haddr hold honly
  · rw [htimers]
    intro t ht
    cases ht

-- In a run in which no request opens a second dialog of its token, and `hs20_tx_gas_response` arms
-- no timer, every station has at most one valid dialog of a token, and every timer is one of an
-- exchange that its slot still holds.
theorem gas_dialog_table (bss : BssConfig)
    (hrun : Runs (hsExec conf) (OpensOnce conf) (HsAp.initial bss) s) : DialogTable s := by
  have hall : HsInv s ∧ DialogTable s ∧ s.timers = [] := by
    refine hrun.rule (I := fun s => HsInv s ∧ DialogTable s ∧ s.timers = [])
      ⟨HsInv.initial bss, ⟨?_, ?_⟩, rfl⟩ ?_
    · intro d d' dia dia' _ hdia
      simp [HsAp.dialog, HsAp.initial, Hapd.initial] at hdia
    · intro t ht
      cases ht
    · rintro u op' ⟨hu, htable, hnone⟩ honce
      obtain ⟨htable', hnone'⟩ := htable.stepped hu hnone honce
      exact ⟨hu.stepped (hsExec_stepped hu op'), htable', hnone'⟩
  exact hall.2.1

theorem gas_dialog_table_sample :
    hs20DialogFind (hsExec sampleConf (HsAp.initial {})
        (.initialReq sampleStation 7 { request := 1 } true {})) sampleStation 7 = some ⟨0, 0⟩ ∧
      DialogTable (hsExec sampleConf (HsAp.initial {})
        (.initialReq sampleStation 7 { request := 1 } true {})) := by
  have honce : OpensOnce sampleConf (HsAp.initial {})
      (.initialReq sampleStation 7 { request := 1 } true {}) :=
    ⟨fun h => h.1, fun _ _ _ => .inl rfl⟩
  exact ⟨by decide, gas_dialog_table {} (.step _ .init honce)⟩

def repeatedRequest : List HsOp :=
  [.initialReq sampleStation 7 { request := 1 } true {},
    .initialReq sampleStation 7 { request := 1 } true {}]

-- The timer of a dialog that was cleared finds another dialog in its slot, eight dialogs later.
def reusedSlot : List HsOp :=
  brokenPromise ++ [.initialReq sampleStation 8 { request := 1 } true {},
    .initialReq sampleStation 9 { request := 1 } true {},
    .initialReq sampleStation 10 { request := 1 } true {},
    .initialReq sampleStation 11 { request := 1 } true {},
    .initialReq sampleStation 12 { request := 1 } true {},
    .initialReq sampleStation 13 { request := 1 } true {},
    .initialReq sampleStation 14 { request := 1 } true {},
    .initialReq sampleStation 15 { request := 1 } true {}]

theorem gas_dialog_table_broken :
    ¬ DialogTable (repeatedRequest.foldl (hsExec sampleConf) (HsAp.initial {})) ∧
      ¬ DialogTable (brokenPromise.foldl (hsExec sampleConf) (HsAp.initial {})) ∧
      hs20DialogFind (reusedSlot.foldl (hsExec sampleConf) (HsAp.initial {})) sampleStation 15 =
        some ⟨0, 0⟩ ∧
      hs20DialogFind (hsExec sampleConf (reusedSlot.foldl (hsExec sampleConf) (HsAp.initial {}))
        (.timer ⟨⟨0, 0⟩, 0⟩)) sampleStation 15 = none := by
  refine ⟨fun h => ?_, fun h => ?_, by decide, by decide⟩
  · have hsame := h.unique ⟨0, 0⟩ ⟨0, 1⟩
      { valid := true, dialogToken := 7, sdResp := some [1, 2, 3, 4], serial := 0 }
      { valid := true, dialogToken := 7, sdResp := some [1, 2, 3, 4], serial := 1 }
      rfl (by decide) (by decide) rfl rfl rfl
    exact absurd hsame (by decide)
  · obtain ⟨-, dia, hdia, hvalid, -⟩ := h.timers ⟨⟨0, 0⟩, 0⟩ (by decide)
    have hcleared : (brokenPromise.foldl (hsExec sampleConf) (HsAp.initial {})).dialog ⟨0, 0⟩ =
        some {} := by decide
    rw [hcleared] at hdia
    cases hdia
    cases hvalid

end WpaSupplicant.Ap
