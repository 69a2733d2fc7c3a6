import WpaSupplicant.Ap.Hs20.Lemmas

namespace WpaSupplicant.Ap

open GasQuery

def GasMsg.dialogToken : GasMsg → UInt8
  | .initialResp token _ _ _ => token
  | .comebackResp token _ _ _ _ => token

def GasMsg.promises : GasMsg → Bool
  | .initialResp _ status comebackDelay _ => decide (status = 0) && decide (comebackDelay ≠ 0)
  | .comebackResp .. => false

def GasMsg.ends : GasMsg → Bool
  | .initialResp _ status comebackDelay _ => decide (status ≠ 0) || decide (comebackDelay = 0)
  | .comebackResp _ status _ more _ => decide (status ≠ 0) || !more

section

variable (conf : HsConfig)

-- `hs20_tx_gas_response` is called for a dialog for which the station has to come back.
def TxComesBack (s : HsAp) : HsOp → Prop
  | .txGasResponse sa dialogToken a =>
    ∃ d dia dia', hs20DialogFind s sa dialogToken = some d ∧ s.dialog d = some dia ∧
      dialogResp conf dia a.payload = some dia' ∧ txComesBack conf dia' = true
  | _ => False

def ArmsTimer (s : HsAp) (op : HsOp) : Prop :=
  TxComesBack conf s op ∧ ∀ sa dialogToken a, op = .txGasResponse sa dialogToken a → a.timer = true

-- There is memory for the frame that answers a station that came back, or whose answers are in.
def HasMemory : HsOp → Prop
  | .comebackReq _ _ a => a.payload = true ∧ a.copy = true ∧ a.tx = true
  | .txGasResponse _ _ a => a.payload = true ∧ a.copy = true ∧ a.tx = true
  | _ => True

def Serves (s : HsAp) (op : HsOp) : Prop := ¬ TxComesBack conf s op ∧ HasMemory op

def opensDialog : HsOp → Option (Addr × UInt8)
  | .initialReq sa dialogToken qi asked _ =>
    let opens :=
      if qi.remoteRequest ≠ 0 then asked
      else
        decide (conf.gasFragLimit < (conf.payload qi.request none).1.length) ||
          decide (conf.gasComebackDelay ≠ 0)
    if opens then some (sa, dialogToken) else none
  | _ => none

def HsOp.looksUp : HsOp → Option (Addr × UInt8)
  | .comebackReq sa dialogToken _ => some (sa, dialogToken)
  | .remoteAnswer sa dialogToken _ _ => some (sa, dialogToken)
  | .txGasResponse sa dialogToken _ => some (sa, dialogToken)
  | _ => none

def Concerns (s : HsAp) (op : HsOp) (d : DialogRef) (dia : Dialog) : Prop :=
  ∃ sa, op.looksUp = some (sa, dia.dialogToken) ∧ s.hapd.addrOf d.sta = some sa

inductive Change (s : HsAp) (op : HsOp) (s' : HsAp) (d : DialogRef) : Prop where
  | same (h : s'.dialog d = s.dialog d)
  | hosted (h : s.dialog d = none) (h' : s'.dialog d = some {})
  | opened (sa : Addr) (dia : Dialog) (hop : opensDialog conf op = some (sa, dia.dialogToken))
      (h : s.dialog d = none ∨ s.dialog d = some {}) (h' : s'.dialog d = some dia)
      (hvalid : dia.valid = true) (hserial : dia.serial = s.next) (hnext : s.next < s'.next)
      (haddr : s'.hapd.addrOf d.sta = some sa)
      (honly : ∀ d', d' ≠ d → s'.dialog d' = s.dialog d' ∨ s'.dialog d' = some {})
  | kept (dia dia' : Dialog) (hfor : Concerns s op d dia) (h : s.dialog d = some dia)
      (h' : s'.dialog d = some dia')
      (hvalid : dia.valid = true) (hvalid' : dia'.valid = true)
      (htoken : dia'.dialogToken = dia.dialogToken) (hserial : dia'.serial = dia.serial)
  | ended (dia : Dialog) (o : Sent) (hfor : Concerns s op d dia) (h : s.dialog d = some dia)
      (h' : s'.dialog d = some {})
      (hsent : s'.sent = s.sent ++ [o]) (ho : o.serial = some dia.serial)
      (hends : o.msg.ends = true)
  | dropped (dia : Dialog) (hfor : Concerns s op d dia) (h : s.dialog d = some dia)
      (h' : s'.dialog d = some {})
      (hop : ¬ Serves conf s op)
  | expired (t : HsTimer) (hop : op = .timer t) (ht : t ∈ s.timers) (hd : t.dialog = d)
      (h' : s'.dialog d = none ∨ s'.dialog d = some {})
  | removed (h' : s'.dialog d = none)

structure Stepped (s : HsAp) (op : HsOp) (s' : HsAp) : Prop where
  table : StaInv s'.hapd
  next : s.next ≤ s'.next
  addr : ∀ p a, s.hapd.addrOf p = some a → s'.hapd.addrOf p = some a ∨ s'.hapd.mem p = none
  change : ∀ d, Change conf s op s' d
  timers : ∀ t ∈ s'.timers, t ∈ s.timers ∨ ArmsTimer conf s op
  sent : s'.sent = s.sent ∨ ∃ o, s'.sent = s.sent ++ [o] ∧
    (o.msg.promises = true → TxComesBack conf s op ∨
      ∃ d dia, s'.dialog d = some dia ∧ dia.valid = true ∧ dia.dialogToken = o.msg.dialogToken ∧
        o.serial = some dia.serial ∧ s'.hapd.addrOf d.sta = some o.dst)

end

variable {conf : HsConfig} {s s₁ s' : HsAp} {op : HsOp} {d : DialogRef} {dia : Dialog}

theorem Stepped.refl (hinv : HsInv s) : Stepped conf s op s :=
  ⟨hinv.table, le_rfl, fun _ _ h => .inl h, fun _ => .same rfl, fun _ ht => .inl ht, .inl rfl⟩

theorem Stepped.send (hinv : HsInv s) (dst : Addr) (msg : GasMsg) (serial : Option ℕ)
    (hmsg : msg.promises = false) : Stepped conf s op (s.sendAction dst msg serial) :=
  ⟨hinv.table, le_rfl, fun _ _ h => .inl h, fun _ => .same rfl, fun _ ht => .inl ht,
    .inr ⟨_, rfl, fun h => by rw [hmsg] at h; cases h⟩⟩

theorem Hosts.stepped (h : Hosts s s') : Stepped conf s op s' := by
  refine ⟨h.table, h.next.ge, fun p a hp => .inl (h.addr p a hp), fun d => ?_, ?_, .inl h.sent⟩
  · rcases h.dialog d with heq | ⟨hnone, hnew⟩
    · exact .same heq
    · exact .hosted hnone hnew
  · intro t ht
    exact .inl (h.timers ▸ ht)

theorem HsInv.stepped (hinv : HsInv s) (h : Stepped conf s op s') : HsInv s' := by
  refine ⟨h.table, fun d dia hdia hvalid => ?_, fun d dia hdia hvalid => ?_⟩
  · cases h.change d with
    | same heq => exact hinv.clean d dia (heq ▸ hdia) hvalid
    | opened sa dia' hop hold h' hvalid' | kept dia₁ dia₂ hfor hold h' _ hvalid' =>
      rw [hdia] at h'
      cases h'
      rw [hvalid] at hvalid'
      cases hvalid'
    | expired t hop ht hd h' =>
      rw [hdia] at h'
      rcases h' with h' | h'
      · cases h'
      · exact Option.some.inj h'
    | removed h' =>
      rw [hdia] at h'
      cases h'
    | hosted _ h' | ended _ _ _ _ h' | dropped _ _ _ h' =>
      rw [hdia] at h'
      exact Option.some.inj h'
  · cases h.change d with
    | same heq => exact (hinv.serial d dia (heq ▸ hdia) hvalid).trans_le h.next
    | opened sa dia' hop hold h' hvalid' hserial hnext =>
      rw [hdia] at h'
      cases h'
      omega
    | kept dia₁ dia₂ hfor hold h' hvalid₁ hvalid' htoken hserial =>
      rw [hdia] at h'
      cases h'
      have hlt := hinv.serial d dia₁ hold hvalid₁
      have hle := h.next
      omega
    | expired t hop ht hd h' =>
      rw [hdia] at h'
      rcases h' with h' | h'
      · cases h'
      · cases h'
        cases hvalid
    | removed h' =>
      rw [hdia] at h'
      cases h'
    | hosted _ h' | ended _ _ _ _ h' | dropped _ _ _ h' =>
      rw [hdia] at h'
      cases h'
      cases hvalid

theorem Change.unsent {s'' : HsAp} (h : Change conf s op s' d) (hsent : s'.sent = s.sent)
    (hhapd : s''.hapd = s'.hapd) (hnext : s''.next = s'.next) : Change conf s op s'' d := by
  have hdialog : s''.dialog d = s'.dialog d := by simp only [HsAp.dialog, hhapd]
  cases h with
  | same heq => exact .same (hdialog.trans heq)
  | hosted hold h' => exact .hosted hold (hdialog.trans h')
  | opened sa dia hop hold h' hvalid hserial hlt haddr honly =>
    refine .opened sa dia hop hold (hdialog.trans h') hvalid hserial (by omega) (hhapd ▸ haddr) ?_
    intro d' hd'
    have hdialog' : s''.dialog d' = s'.dialog d' := by simp only [HsAp.dialog, hhapd]
    rw [hdialog']
    exact honly d' hd'
  | kept dia dia' hfor hold h' hvalid hvalid' htoken hserial =>
    exact .kept dia dia' hfor hold (hdialog.trans h') hvalid hvalid' htoken hserial
  | ended dia o hfor hold h' hs ho hends =>
    rw [hsent] at hs
    simp at hs
  | dropped dia hfor hold h' hop => exact .dropped dia hfor hold (hdialog.trans h') hop
  | expired t hop ht hd h' => exact .expired t hop ht hd (by rwa [hdialog])
  | removed h' => exact .removed (hdialog.trans h')

section Touch

variable {dia' : Dialog}

theorem Stepped.keep (hinv : HsInv s) (hfor : Concerns s op d dia)
    (hdia : s.dialog d = some dia) (hvalid : dia.valid = true)
    (hvalid' : dia'.valid = true) (htoken : dia'.dialogToken = dia.dialogToken)
    (hserial : dia'.serial = dia.serial) : Stepped conf s op (s.setDialog d dia') := by
  refine ⟨hinv.table.setDialog dia', le_rfl, fun p a hp => .inl (by simpa using hp), ?_,
    fun t ht => .inl ht, .inl rfl⟩
  intro d'
  by_cases hd : d' = d
  · subst hd
    exact .kept dia dia' hfor hdia (dialog_setDialog_self hdia dia') hvalid hvalid' htoken hserial
  · exact .same (dialog_setDialog_ne hd dia')

theorem Stepped.andSend (h : Stepped conf s op s') (hsent : s'.sent = s.sent) (dst : Addr)
    (msg : GasMsg) (serial : Option ℕ) (hmsg : msg.promises = false) :
    Stepped conf s op (s'.sendAction dst msg serial) := by
  refine ⟨h.table, h.next, h.addr, fun d => ?_, h.timers, .inr ⟨⟨dst, msg, serial⟩, ?_, ?_⟩⟩
  · exact (h.change d).unsent hsent rfl rfl
  · show s'.sent ++ [_] = s.sent ++ [_]
    rw [hsent]
  · intro h
    rw [hmsg] at h
    cases h

theorem Stepped.finish (hinv : HsInv s) (hfor : Concerns s op d dia)
    (hdia : s.dialog d = some dia) (dst : Addr) (msg : GasMsg) (hends : msg.ends = true) (hmsg : msg.promises = false) :
    Stepped conf s op ((hs20DialogClear s d).sendAction dst msg (some dia.serial)) := by
  refine ⟨hinv.table.setDialog {}, le_rfl, fun p a hp => .inl ((addrOf_setDialog p {}).trans hp),
    fun d' => ?_, fun t ht => .inl ht, .inr ⟨⟨dst, msg, some dia.serial⟩, rfl, ?_⟩⟩
  · by_cases hd : d' = d
    · subst hd
      exact .ended dia ⟨dst, msg, some dia.serial⟩ hfor hdia (dialog_setDialog_self hdia {}) rfl
        rfl hends
    · exact .same (dialog_setDialog_ne hd {})
  · intro h
    rw [hmsg] at h
    cases h

theorem Stepped.drop (hinv : HsInv s) (hfor : Concerns s op d dia)
    (hdia : s.dialog d = some dia) (hop : ¬ Serves conf s op) :
    Stepped conf s op (hs20DialogClear s d) := by
  refine ⟨hinv.table.setDialog {}, le_rfl, fun p a hp => .inl ((addrOf_setDialog p {}).trans hp),
    fun d' => ?_, fun t ht => .inl ht, .inl rfl⟩
  by_cases hd : d' = d
  · subst hd
    exact .dropped dia hfor hdia (dialog_setDialog_self hdia {}) hop
  · exact .same (dialog_setDialog_ne hd {})

-- The frames and the timers of `hs20_tx_gas_response` when the station has to come back
theorem Stepped.comesBack {s'' : HsAp} (h : Stepped conf s op s') (hcomes : TxComesBack conf s op)
    (hsent : s'.sent = s.sent) (hhapd : s''.hapd = s'.hapd) (hnext : s''.next = s'.next)
    (htimers : ∀ t ∈ s''.timers, t ∈ s.timers ∨ ArmsTimer conf s op)
    (hone : s''.sent = s.sent ∨ ∃ o, s''.sent = s.sent ++ [o]) : Stepped conf s op s'' := by
  refine ⟨hhapd ▸ h.table, hnext ▸ h.next, hhapd ▸ h.addr, fun d => ?_, htimers, ?_⟩
  · exact (h.change d).unsent hsent hhapd hnext
  · rcases hone with hone | ⟨o, hone⟩
    · exact .inl hone
    · exact .inr ⟨o, hone, fun _ => .inl hcomes⟩

end Touch

section Open

variable {addr : Addr} {dialogToken : UInt8} {dia' : Dialog}

theorem Opens.stepped (h : Opens s addr dialogToken d s₁)
    (hop : opensDialog conf op = some (addr, dialogToken)) (hvalid : dia'.valid = true)
    (htoken : dia'.dialogToken = dialogToken) (hserial : dia'.serial = s.next) :
    Stepped conf s op (s₁.setDialog d dia') := by
  have hnext : s.next < (s₁.setDialog d dia').next := by
    rw [next_setDialog, h.next]
    omega
  refine ⟨h.table.setDialog dia', hnext.le, ?_, fun d' => ?_, ?_, .inl h.sent⟩
  · exact fun p a hp => .inl ((addrOf_setDialog p dia').trans (h.addrs p a hp))
  · by_cases hd : d' = d
    · subst hd
      refine .opened addr dia' (htoken ▸ hop) h.before (dialog_setDialog_self h.opened dia') hvalid
        hserial hnext ((addrOf_setDialog _ dia').trans h.addr) fun d₂ hd₂ => ?_
      rw [dialog_setDialog_ne hd₂ dia']
      exact (h.others d₂ hd₂).imp_right And.right
    · rcases h.others d' hd with heq | ⟨hnone, hnew⟩
      · exact .same ((dialog_setDialog_ne hd dia').trans heq)
      · exact .hosted hnone ((dialog_setDialog_ne hd dia').trans hnew)
  · exact fun t ht => .inl (h.timers ▸ ht)

theorem Opens.promise (h : Opens s addr dialogToken d s₁)
    (hop : opensDialog conf op = some (addr, dialogToken)) (hvalid : dia'.valid = true)
    (htoken : dia'.dialogToken = dialogToken) (hserial : dia'.serial = s.next) (status delay : UInt16)
    (payload : Octets) :
    Stepped conf s op ((s₁.setDialog d dia').sendAction addr
      (.initialResp dialogToken status delay payload) (some s.next)) := by
  have hstep : Stepped conf s op (s₁.setDialog d dia') := h.stepped hop hvalid htoken hserial
  refine ⟨hstep.table, hstep.next, hstep.addr, fun d' => ?_, hstep.timers, .inr ⟨⟨addr,
    .initialResp dialogToken status delay payload, some s.next⟩, ?_, fun _ => .inr ?_⟩⟩
  · exact (hstep.change d').unsent h.sent rfl rfl
  · show s₁.sent ++ [_] = s.sent ++ [_]
    rw [h.sent]
  · refine ⟨d, dia', dialog_setDialog_self h.opened dia', hvalid, htoken, ?_, ?_⟩
    · rw [hserial]
    · exact (addrOf_setDialog _ dia').trans h.addr

theorem Opens.cleared (h : Opens s addr dialogToken d s₁) :
    Stepped conf s op (hs20DialogClear s₁ d) := by
  have hself := dialog_setDialog_self h.opened {}
  refine ⟨h.table.setDialog {}, ?_, fun p a hp => ?_, fun d' => ?_, ?_, .inl h.sent⟩
  · show s.next ≤ s₁.next
    rw [h.next]
    omega
  · exact .inl ((addrOf_setDialog p {}).trans (h.addrs p a hp))
  · by_cases hd : d' = d
    · subst hd
      rcases h.before with hnone | hold
      · exact .hosted hnone hself
      · exact .same (hself.trans hold.symm)
    · rcases h.others d' hd with heq | ⟨hnone, hnew⟩
      · exact .same ((dialog_setDialog_ne hd {}).trans heq)
      · exact .hosted hnone ((dialog_setDialog_ne hd {}).trans hnew)
  · exact fun t ht => .inl (h.timers ▸ ht)

end Open

section Operations

variable {sa : Addr} {dialogToken : UInt8} {a : HsAnswers}

theorem setDialog_setDialog (dia₁ dia₂ : Dialog) :
    (s.setDialog d dia₁).setDialog d dia₂ = s.setDialog d dia₂ := by
  simp only [HsAp.setDialog, Hapd.modify, Function.update_self, Function.update_idem, Option.map_map]
  congr 3
  cases s.hapd.mem d.sta with
  | none => rfl
  | some e => simp

theorem setDialog_sendAction (dst : Addr) (msg : GasMsg) (serial : Option ℕ) (dia' : Dialog) :
    (s.sendAction dst msg serial).setDialog d dia' = (s.setDialog d dia').sendAction dst msg serial :=
  rfl

theorem hs20ReqRemoteProcessing_stepped (hinv : HsInv s) (qi : AnqpQueryInfo) (asked : Bool)
    (hqi : qi.remoteRequest ≠ 0) :
    Stepped conf s (.initialReq sa dialogToken qi asked a)
      (hs20ReqRemoteProcessing s sa dialogToken qi asked a) := by
  rw [hs20ReqRemoteProcessing]
  obtain ⟨s₁, heq, hhosts⟩ | ⟨s₁, d, heq, hopens⟩ :=
    hs20DialogCreate_cases hinv sa dialogToken a.sta
  · rw [heq]
    exact hhosts.stepped
  rw [heq]
  dsimp only
  rw [hopens.opened, Option.getD_some]
  cases asked with
  | false =>
    simp only [Bool.not_false, if_true]
    split
    · exact hopens.cleared.andSend hopens.sent sa _ _ rfl
    · exact hopens.cleared
  | true =>
    have hop : opensDialog conf (.initialReq sa dialogToken qi true a) = some (sa, dialogToken) := by
      simp only [opensDialog, if_pos hqi, if_true]
    simp only [Bool.not_true, Bool.false_eq_true, if_false]
    split
    · split
      · exact hopens.promise hop rfl rfl rfl _ _ _
      · exact hopens.stepped hop rfl rfl rfl
    · exact hopens.stepped hop rfl rfl rfl

theorem hs20ReqLocalProcessing_stepped (hinv : HsInv s) (qi : AnqpQueryInfo) (asked : Bool)
    (hqi : qi.remoteRequest = 0) :
    Stepped conf s (.initialReq sa dialogToken qi asked a)
      (hs20ReqLocalProcessing conf s sa dialogToken qi a) := by
  rw [hs20ReqLocalProcessing]
  split
  · exact Stepped.refl hinv
  dsimp only
  split
  · rename_i hback
    have hop : opensDialog conf (.initialReq sa dialogToken qi asked a) =
        some (sa, dialogToken) := by
      simp only [opensDialog, hqi, ne_eq, not_true_eq_false, if_false]
      rw [if_pos (by simpa using hback)]
    obtain ⟨s₁, heq, hhosts⟩ | ⟨s₁, d, heq, hopens⟩ :=
      hs20DialogCreate_cases hinv sa dialogToken a.sta
    · rw [heq]
      exact hhosts.stepped
    rw [heq]
    dsimp only
    rw [hopens.opened, Option.getD_some]
    split
    · exact hopens.promise hop rfl rfl rfl _ _ _
    · exact hopens.stepped hop rfl rfl rfl
  · split
    · exact Stepped.send hinv _ _ _ rfl
    · exact Stepped.refl hinv

theorem hs20RxGasInitialReq_stepped (hinv : HsInv s) (qi : AnqpQueryInfo) (asked : Bool) :
    Stepped conf s (.initialReq sa dialogToken qi asked a)
      (hs20RxGasInitialReq conf s sa dialogToken qi asked a) := by
  rw [hs20RxGasInitialReq]
  split
  · rename_i hqi
    exact hs20ReqRemoteProcessing_stepped hinv qi asked hqi
  · rename_i hqi
    exact hs20ReqLocalProcessing_stepped hinv qi asked (not_not.mp hqi)

theorem dialogResp_some {dia₀ : Dialog} {alloc : Bool}
    (h : dialogResp conf dia₀ alloc = some dia) :
    dia.valid = dia₀.valid ∧ dia.dialogToken = dia₀.dialogToken ∧ dia.serial = dia₀.serial := by
  rw [dialogResp] at h
  split at h
  · cases h
    exact ⟨rfl, rfl, rfl⟩
  split at h
  · cases h
    exact ⟨rfl, rfl, rfl⟩
  · cases h

theorem dialogResp_ne_none {dia₀ : Dialog} {alloc : Bool} (h : dialogResp conf dia₀ alloc = none) :
    alloc = false := by
  rw [dialogResp] at h
  split at h
  · cases h
  split at h
  · cases h
  · rename_i halloc
    simpa using halloc

theorem hs20TxGasResponse_stepped (hinv : HsInv s)
    (hfind : hs20DialogFind s sa dialogToken = some d) :
    Stepped conf s (.txGasResponse sa dialogToken a) (hs20TxGasResponse conf s d a) := by
  obtain ⟨haddr, dia₀, hdia₀, hvalid, rfl⟩ := hs20DialogFind_some hinv.table hfind
  have hfor : Concerns s (.txGasResponse sa dia₀.dialogToken a) d dia₀ := ⟨sa, rfl, haddr⟩
  rw [hs20TxGasResponse, hdia₀]
  dsimp only
  cases hresp : dialogResp conf dia₀ a.payload with
  | none =>
    refine Stepped.drop hinv hfor hdia₀ fun hserves => ?_
    have hpayload : a.payload = true := hserves.2.1
    rw [dialogResp_ne_none hresp] at hpayload
    cases hpayload
  | some dia =>
    obtain ⟨-, -, hserial⟩ := dialogResp_some hresp
    dsimp only
    simp only [hs20ClearCachedIes, hs20DialogClear]
    by_cases hback : txComesBack conf dia = true
    · have hcomes : TxComesBack conf s (.txGasResponse sa dia₀.dialogToken a) :=
        ⟨d, dia₀, dia, hfind, hdia₀, hresp, hback⟩
      have hdrop : Stepped conf s (.txGasResponse sa dia₀.dialogToken a) (s.setDialog d {}) :=
        Stepped.drop hinv hfor hdia₀ fun hserves => hserves.1 hcomes
      have hhapd := congrArg HsAp.hapd (setDialog_setDialog (s := s) (d := d) dia {})
      have harms (htimer : a.timer = true) : ArmsTimer conf s (.txGasResponse sa dia₀.dialogToken a) := by
        refine ⟨hcomes, fun sa' token' a' heq => ?_⟩
        cases heq
        exact htimer
      rw [if_pos hback]
      cases htx : a.tx <;> cases htimer : a.timer <;>
        simp only [Bool.false_eq_true, if_false, if_true]
      · exact hdrop.comesBack hcomes rfl hhapd rfl (fun _ ht => .inl ht) (.inl rfl)
      · exact hdrop.comesBack hcomes rfl hhapd rfl (fun _ _ => .inr (harms htimer)) (.inl rfl)
      · exact hdrop.comesBack hcomes rfl hhapd rfl (fun _ ht => .inl ht) (.inr ⟨_, rfl⟩)
      · exact hdrop.comesBack hcomes rfl hhapd rfl (fun _ _ => .inr (harms htimer)) (.inr ⟨_, rfl⟩)
    · rw [if_neg hback]
      split
      · rename_i hmem
        rw [setDialog_setDialog]
        refine Stepped.drop hinv hfor hdia₀ fun hserves => ?_
        obtain ⟨-, hcopy, htx⟩ : a.payload = true ∧ a.copy = true ∧ a.tx = true := hserves.2
        simp [hcopy, htx] at hmem
      · rw [setDialog_sendAction, setDialog_setDialog, setDialog_setDialog, hserial]
        exact Stepped.finish hinv hfor hdia₀ _ _ rfl rfl

theorem hs20RxGasComebackReq_stepped (hinv : HsInv s) :
    Stepped conf s (.comebackReq sa dialogToken a)
      (hs20RxGasComebackReq conf s sa dialogToken a) := by
  rw [hs20RxGasComebackReq]
  cases hfind : hs20DialogFind s sa dialogToken with
  | none =>
    dsimp only
    split
    · exact Stepped.refl hinv
    · exact Stepped.send hinv _ _ _ rfl
  | some d =>
    obtain ⟨haddr, dia₀, hdia₀, hvalid, rfl⟩ := hs20DialogFind_some hinv.table hfind
    have hfor : Concerns s (.comebackReq sa dia₀.dialogToken a) d dia₀ := ⟨sa, rfl, haddr⟩
    -- without memory the dialog is lost
    have hlost (hmem : ¬ (a.payload = true ∧ a.copy = true ∧ a.tx = true)) :
        Stepped conf s (.comebackReq sa dia₀.dialogToken a) (hs20DialogClear s d) :=
      Stepped.drop hinv hfor hdia₀ fun hserves => hmem hserves.2
    dsimp only
    rw [hdia₀, Option.getD_some]
    split
    · split
      · exact Stepped.finish hinv hfor hdia₀ _ _ rfl rfl
      · rename_i htx
        exact hlost fun hmem => htx hmem.2.2
    cases hresp : dialogResp conf dia₀ a.payload with
    | none =>
      refine hlost fun hmem => ?_
      have hfalse := dialogResp_ne_none hresp
      rw [hmem.1] at hfalse
      cases hfalse
    | some dia =>
      obtain ⟨hval, htok, hserial⟩ := dialogResp_some hresp
      dsimp only
      by_cases hmem : (!a.copy || !a.tx) = true
      · rw [if_pos hmem, hs20ClearCachedIes, hs20DialogClear, setDialog_setDialog]
        refine hlost fun hall => ?_
        simp [hall.2.1, hall.2.2] at hmem
      rw [if_neg hmem]
      by_cases hmore : decide (conf.gasFragLimit < dia.rest.length) = true
      · simp only [hmore, if_true, setDialog_setDialog]
        have hkeep : Stepped conf s (.comebackReq sa dia₀.dialogToken a)
            (s.setDialog d { dia with
              sdFragId := dia.sdFragId + 1
              sdRespPos := dia.sdRespPos + (dia.rest.take conf.gasFragLimit).length }) :=
          Stepped.keep hinv hfor hdia₀ hvalid (hval.trans hvalid) htok hserial
        exact hkeep.andSend rfl _ _ _ rfl
      · simp only [hmore, Bool.false_eq_true, if_false, hs20DialogClear,
          setDialog_setDialog, hserial]
        exact Stepped.finish hinv hfor hdia₀ _ _ rfl rfl

theorem storeAnswer_stepped (hinv : HsInv s) (element : BitVec 32) (data : Octets)
    (hfor : Concerns s op d dia) (hdia : s.dialog d = some dia) (hvalid : dia.valid = true) :
    Stepped conf s op (storeAnswer s d element data) := by
  rw [storeAnswer, hdia]
  exact Stepped.keep hinv hfor hdia hvalid hvalid rfl rfl

theorem timer_stepped (hinv : HsInv s) {t : HsTimer} (ht : t ∈ s.timers) :
    Stepped conf s (.timer t)
      (hs20ClearCachedIes { s with timers := s.timers.erase t } t.dialog) := by
  refine ⟨hinv.table.setDialog {}, le_rfl, fun p a hp => .inl ((addrOf_setDialog p {}).trans hp),
    fun d' => ?_, fun u hu => .inl (List.mem_of_mem_erase hu), .inl rfl⟩
  by_cases hd : d' = t.dialog
  · refine .expired t rfl ht hd.symm ?_
    subst hd
    cases hdia : s.dialog t.dialog with
    | none =>
      left
      have hmem : s.hapd.mem t.dialog.sta = none := by simpa [HsAp.dialog] using hdia
      simp [hs20ClearCachedIes, hs20DialogClear, HsAp.setDialog, HsAp.dialog, Hapd.modify, hmem]
    | some dia => exact .inr (dialog_setDialog_self (s := { s with timers := _ }) hdia {})
  · exact .same (dialog_setDialog_ne hd {})

theorem sta_stepped (hinv : HsInv s) (staOp : StaOp) :
    Stepped conf s (.sta staOp) { s with hapd := staExec s.hapd staOp } := by
  have hentries := staExec_entries hinv.table staOp
  refine ⟨hinv.table.staExec staOp, le_rfl, fun p a hp => ?_, fun d => ?_, fun t ht => .inl ht,
    .inl rfl⟩
  · cases hmem : (staExec s.hapd staOp).mem p with
    | none => exact .inr rfl
    | some e' =>
      left
      obtain ⟨e, he, hea⟩ := Option.map_eq_some_iff.mp hp
      rcases hentries p e' hmem with ⟨e₁, he₁, haddr, -⟩ | ⟨hnone, -⟩
      · rw [he] at he₁
        cases he₁
        simp [Hapd.addrOf, hmem, haddr, hea]
      · rw [he] at hnone
        cases hnone
  · cases hmem : (staExec s.hapd staOp).mem d.sta with
    | none => exact .removed (by simp [HsAp.dialog, hmem])
    | some e' =>
      rcases hentries d.sta e' hmem with ⟨e, he, -, hext⟩ | ⟨hnone, hext⟩
      · exact .same (by simp [HsAp.dialog, hmem, he, hext])
      refine .hosted (by simp [HsAp.dialog, hnone]) ?_
      simp only [HsAp.dialog, hmem, Option.map_some, hext]
      rfl

theorem hsExec_stepped (hinv : HsInv s) (op : HsOp) : Stepped conf s op (hsExec conf s op) := by
  cases op with
  | initialReq sa dialogToken qi asked a => exact hs20RxGasInitialReq_stepped hinv qi asked
  | comebackReq sa dialogToken a => exact hs20RxGasComebackReq_stepped hinv
  | remoteAnswer sa dialogToken element data =>
    simp only [hsExec]
    cases hfind : hs20DialogFind s sa dialogToken with
    | none => exact Stepped.refl hinv
    | some d =>
      obtain ⟨haddr, dia, hdia, hvalid, rfl⟩ := hs20DialogFind_some hinv.table hfind
      exact storeAnswer_stepped hinv element data ⟨sa, rfl, haddr⟩ hdia hvalid
  | txGasResponse sa dialogToken a =>
    simp only [hsExec]
    cases hfind : hs20DialogFind s sa dialogToken with
    | none => exact Stepped.refl hinv
    | some d => exact hs20TxGasResponse_stepped hinv hfind
  | timer t =>
    simp only [hsExec]
    split
    · rename_i ht
      exact timer_stepped hinv ht
    · exact Stepped.refl hinv
  | sta staOp => exact sta_stepped hinv staOp

end Operations

end WpaSupplicant.Ap
