import WpaSupplicant.GasExchange
import WpaSupplicant.Ap.Hs20.Dialogs

namespace WpaSupplicant.Ap

open GasQuery GasExchange

variable {conf : HsConfig} {x : Exchange} {s s' : HsAp} {op : HsOp} {d d' : DialogRef} {dia : Dialog}
  {payload : Octets} {pos : ℕ} {fragId : UInt8}

def Ours (x : Exchange) (s : HsAp) (d : DialogRef) : Prop :=
  s.hapd.addrOf d.sta = some x.sta ∧
    ∃ dia, s.dialog d = some dia ∧ dia.valid = true ∧ dia.dialogToken = x.dialogToken

def Serving (x : Exchange) (s : HsAp) (payload : Octets) (pos : ℕ) (fragId : UInt8) : Prop :=
  ∃ d dia, Ours x s d ∧ s.dialog d = some dia ∧ dia.sdResp = some payload ∧ dia.sdRespPos = pos ∧
    dia.sdFragId = fragId ∧ ∀ d', Ours x s d' → d' = d

theorem hs20DialogFind_eq_none (hinv : StaInv s.hapd) :
    hs20DialogFind s x.sta x.dialogToken = none ↔ ∀ d, ¬ Ours x s d := by
  constructor
  · rintro hnone d ⟨haddr, dia, hdia, hvalid, htoken⟩
    exact hs20DialogFind_of_valid hinv haddr hdia hvalid htoken hnone
  · intro hno
    by_contra hsome
    obtain ⟨d, hd⟩ := Option.ne_none_iff_exists'.mp hsome
    exact hno d (hs20DialogFind_some hinv hd)

theorem hs20DialogFind_eq_some (hinv : StaInv s.hapd) (h : Ours x s d)
    (honly : ∀ d', Ours x s d' → d' = d) : hs20DialogFind s x.sta x.dialogToken = some d := by
  obtain ⟨haddr, dia, hdia, hvalid, htoken⟩ := h
  have hsome := hs20DialogFind_of_valid hinv haddr hdia hvalid htoken
  obtain ⟨d', hd'⟩ := Option.ne_none_iff_exists'.mp hsome
  rw [hd', honly d' (hs20DialogFind_some hinv hd')]

section Elsewhere

theorem apKey_looksUp {k : Addr × UInt8} (h : op.looksUp = some k) : apKey op = some k := by
  cases op <;> first | exact h | cases h

theorem apKey_opensDialog {k : Addr × UInt8} (h : opensDialog conf op = some k) :
    apKey op = some k := by
  cases op with
  | initialReq sa dialogToken qi asked a =>
    simp only [opensDialog, Option.ite_none_right_eq_some] at h
    exact h.2
  | _ => cases h

variable (hstep : Stepped conf s op s') (hkey : apKey op ≠ some (x.sta, x.dialogToken))
include hstep hkey

omit hstep in
theorem Concerns.elsewhere (haddr : s.hapd.addrOf d.sta = some x.sta)
    (htoken : dia.dialogToken = x.dialogToken) : ¬ Concerns s op d dia := by
  rintro ⟨sa, hlook, hsa⟩
  rw [haddr] at hsa
  cases hsa
  exact hkey (htoken ▸ apKey_looksUp hlook)

theorem Ours.before (h : Ours x s' d) : Ours x s d := by
  obtain ⟨haddr', dia', hdia', hvalid', htoken'⟩ := h
  -- an entry does not change its address
  have haddr {dia : Dialog} (hdia : s.dialog d = some dia) : s.hapd.addrOf d.sta = some x.sta := by
    obtain ⟨e, he, -⟩ := dialog_eq_some.1 hdia
    have hold : s.hapd.addrOf d.sta = some e.addr := by simp [Hapd.addrOf, he]
    rcases hstep.addr _ _ hold with hsame | hgone
    · rw [haddr'] at hsame
      rw [hold, Option.some.inj hsame]
    · simp [HsAp.dialog, hgone] at hdia'
  cases hstep.change d with
  | same heq =>
    rw [heq] at hdia'
    exact ⟨haddr hdia', dia', hdia', hvalid', htoken'⟩
  | opened sa dia hop hold h' hvalid hserial hnext hsa =>
    rw [hdia'] at h'
    cases h'
    rw [haddr'] at hsa
    cases hsa
    exact absurd (htoken' ▸ apKey_opensDialog hop) hkey
  | kept dia₁ dia₂ hfor hold h' _ _ htoken =>
    rw [hdia'] at h'
    cases h'
    exact absurd hfor (Concerns.elsewhere hkey (haddr hold) (htoken.symm.trans htoken'))
  | expired t hop ht hd h' =>
    rw [hdia'] at h'
    rcases h' with h' | h'
    · cases h'
    · cases h'
      cases hvalid'
  | removed h' =>
    rw [hdia'] at h'
    cases h'
  | hosted _ h' | ended _ _ _ _ h' | dropped _ _ _ h' =>
    rw [hdia'] at h'
    cases h'
    cases hvalid'

theorem Ours.kept (h : Ours x s d) (hthere : s'.hapd.mem d.sta ≠ none)
    (htimer : ∀ t, op = .timer t → t.dialog ≠ d) : Ours x s' d ∧ s'.dialog d = s.dialog d := by
  obtain ⟨haddr, dia, hdia, hvalid, htoken⟩ := h
  have hsame : s'.dialog d = s.dialog d := by
    cases hstep.change d with
    | same heq => exact heq
    | hosted hold =>
      rw [hdia] at hold
      cases hold
    | opened sa dia' hop hold =>
      rw [hdia] at hold
      rcases hold with hold | hold
      · cases hold
      · cases hold
        cases hvalid
    | expired t hop ht hd => exact absurd hd (htimer t hop)
    | removed h' => exact absurd (by simpa [HsAp.dialog] using h') hthere
    | kept dia₁ _ hfor hold | ended dia₁ _ hfor hold | dropped dia₁ hfor hold =>
      rw [hdia] at hold
      cases hold
      exact absurd hfor (Concerns.elsewhere hkey haddr htoken)
  refine ⟨⟨(hstep.addr _ _ haddr).resolve_right hthere, dia, hsame.trans hdia, hvalid, htoken⟩, hsame⟩

theorem Serving.elsewhere (h : Serving x s payload pos fragId)
    (hkeeps : ∀ d, Ours x s d → s'.hapd.mem d.sta ≠ none ∧ ∀ t, op = .timer t → t.dialog ≠ d) :
    Serving x s' payload pos fragId := by
  obtain ⟨d, dia, hours, hdia, hresp, hpos, hfrag, honly⟩ := h
  obtain ⟨hthere, htimer⟩ := hkeeps d hours
  obtain ⟨hours', hsame⟩ := hours.kept hstep hkey hthere htimer
  refine ⟨d, dia, hours', hsame.trans hdia, hresp, hpos, hfrag, fun d' hd' => ?_⟩
  exact honly d' (hd'.before hstep hkey)

end Elsewhere

section Sent

def SentFor (k : Option (Addr × UInt8)) (s s' : HsAp) : Prop :=
  s'.sent = s.sent ∨ ∃ o, s'.sent = s.sent ++ [o] ∧ some (o.dst, o.msg.dialogToken) = k

theorem SentFor.unsent {k : Option (Addr × UInt8)} (h : s'.sent = s.sent) : SentFor k s s' := .inl h

theorem SentFor.send {k : Option (Addr × UInt8)} {dst : Addr} {msg : GasMsg} {serial : Option ℕ}
    (h : s'.sent = s.sent) (hk : some (dst, msg.dialogToken) = k) :
    SentFor k s (s'.sendAction dst msg serial) := by
  refine .inr ⟨⟨dst, msg, serial⟩, ?_, hk⟩
  show s'.sent ++ [_] = s.sent ++ [_]
  rw [h]

variable {sa : Addr} {dialogToken : UInt8} {a : HsAnswers}

theorem hs20DialogCreate_sent (hinv : HsInv s) (sa : Addr) (dialogToken : UInt8) (alloc : Bool) :
    (hs20DialogCreate s sa dialogToken alloc).1.sent = s.sent := by
  rcases hs20DialogCreate_cases hinv sa dialogToken alloc with
    ⟨s₁, heq, hhosts⟩ | ⟨s₁, d, heq, hopens⟩
  · rw [heq]
    exact hhosts.sent
  · rw [heq]
    exact hopens.sent

theorem hs20RxGasInitialReq_sentFor (hinv : HsInv s) (qi : AnqpQueryInfo) (asked : Bool) :
    SentFor (some (sa, dialogToken)) s (hs20RxGasInitialReq conf s sa dialogToken qi asked a) := by
  have hsent := hs20DialogCreate_sent hinv sa dialogToken a.sta
  simp only [hs20RxGasInitialReq, hs20ReqRemoteProcessing, hs20ReqLocalProcessing]
  generalize hs20DialogCreate s sa dialogToken a.sta = r at hsent
  obtain ⟨s₁, _ | d⟩ := r
  all_goals
    dsimp only at hsent ⊢
    repeat' split
    all_goals
      first
        | exact .unsent hsent
        | exact .unsent rfl
        | exact .send hsent rfl
        | exact .send rfl rfl

theorem hs20RxGasComebackReq_sentFor :
    SentFor (some (sa, dialogToken)) s (hs20RxGasComebackReq conf s sa dialogToken a) := by
  simp only [hs20RxGasComebackReq]
  repeat' split
  all_goals
    first
      | exact .unsent rfl
      | exact .send rfl rfl

theorem hs20TxGasResponse_sentFor (hinv : HsInv s)
    (hfind : hs20DialogFind s sa dialogToken = some d) :
    SentFor (some (sa, dialogToken)) s (hs20TxGasResponse conf s d a) := by
  obtain ⟨haddr, dia₀, hdia₀, hvalid, rfl⟩ := hs20DialogFind_some hinv.table hfind
  simp only [hs20TxGasResponse, hdia₀, haddr, Option.getD_some]
  cases hresp : dialogResp conf dia₀ a.payload with
  | none => exact .unsent rfl
  | some dia =>
    obtain ⟨-, htoken, -⟩ := dialogResp_some hresp
    have hk (status delay : UInt16) (payload : Octets) :
        some (sa, (GasMsg.initialResp dia.dialogToken status delay payload).dialogToken) =
          some (sa, dia₀.dialogToken) := by rw [GasMsg.dialogToken, htoken]
    dsimp only
    repeat' split
    all_goals
      first
        | exact .unsent rfl
        | exact .inr ⟨_, rfl, hk _ _ _⟩

theorem hsExec_sentFor (conf : HsConfig) (hinv : HsInv s) (op : HsOp) :
    SentFor (apKey op) s (hsExec conf s op) := by
  cases op with
  | initialReq sa dialogToken qi asked a => exact hs20RxGasInitialReq_sentFor hinv qi asked
  | comebackReq sa dialogToken a => exact hs20RxGasComebackReq_sentFor
  | remoteAnswer sa dialogToken element data =>
    refine .unsent ?_
    simp only [hsExec, storeAnswer]
    repeat' split
    all_goals rfl
  | txGasResponse sa dialogToken a =>
    simp only [hsExec]
    cases hfind : hs20DialogFind s sa dialogToken with
    | none => exact .unsent rfl
    | some d => exact hs20TxGasResponse_sentFor hinv hfind
  | timer t =>
    refine .unsent ?_
    simp only [hsExec]
    split <;> rfl
  | sta op => exact .unsent rfl

theorem hsExec_frames (hinv : HsInv s) (hkey : apKey op ≠ some (x.sta, x.dialogToken)) :
    ((hsExec conf s op).sent.drop s.sent.length).filter x.ofAp = [] := by
  rcases hsExec_sentFor conf hinv op with hnone | ⟨o, ho, hk⟩
  · simp [hnone]
  have hno : x.ofAp o = false := by
    by_contra hyes
    simp only [Exchange.ofAp, Bool.not_eq_false, Bool.and_eq_true, decide_eq_true_eq] at hyes
    rw [hyes.1, hyes.2] at hk
    exact hkey hk.symm
  rw [ho, List.drop_left]
  simp [hno]

end Sent

theorem hs20DialogCreate_opens (hinv : HsInv s) (hroom : HasRoom s x.sta) (dialogToken : UInt8) :
    ∃ s' d, hs20DialogCreate s x.sta dialogToken true = (s', some d) ∧
      Opens s x.sta dialogToken d s' := by
  refine (hs20DialogCreate_cases hinv x.sta dialogToken true).resolve_left ?_
  rintro ⟨s', heq, -⟩
  have hnone : (hs20DialogCreate s x.sta dialogToken true).2 = none := by rw [heq]
  rcases hroom with ⟨p, e, hget, he, hslot⟩ | ⟨hget, hnum⟩
  · obtain ⟨i, hi⟩ := Option.ne_none_iff_exists'.mp hslot
    simp [hs20DialogCreate, dialogSta, hget, he, hi] at hnone
  have hadd : apStaAdd s.hapd x.sta true =
      (insertSta s.hapd { addr := x.sta, ext := default }, some s.hapd.next) := by
    rcases apStaAdd_cases s.hapd x.sta true with ⟨sta, hsta, -⟩ | ⟨-, hfull, -⟩ | ⟨-, -, heq⟩
    · rw [hget] at hsta
      cases hsta
    · rcases hfull with hfull | hfull
      · omega
      · cases hfull
    · exact heq
  have hfree : freeSlot { addr := x.sta, flags := { gas := true }, ext := (default : Dialogs) } =
      some 0 := rfl
  simp [hs20DialogCreate, dialogSta, hget, hadd, apStaSessionTimeout, Hapd.rearm, Hapd.arm,
    Hapd.cancel, Hapd.modify, insertSta, hfree] at hnone

theorem Opens.serving {s₁ : HsAp} (h : Opens s x.sta x.dialogToken d s₁) (hnone : ∀ d, ¬ Ours x s d)
    (dia' : Dialog) (hvalid : dia'.valid = true) (htoken : dia'.dialogToken = x.dialogToken)
    (hresp : dia'.sdResp = some payload) :
    Serving x (s₁.setDialog d dia') payload dia'.sdRespPos dia'.sdFragId := by
  have hself := dialog_setDialog_self h.opened dia'
  refine ⟨d, dia', ⟨(addrOf_setDialog _ dia').trans h.addr, dia', hself, hvalid, htoken⟩, hself, hresp,
    rfl, rfl, ?_⟩
  rintro d' ⟨haddr', dia₂, hdia₂, hvalid₂, htoken₂⟩
  by_contra hd
  rw [dialog_setDialog_ne hd] at hdia₂
  rw [addrOf_setDialog] at haddr'
  rcases h.others d' hd with heq | ⟨-, hnew⟩
  · rw [heq] at hdia₂
    obtain ⟨e, he, -⟩ := dialog_eq_some.1 hdia₂
    have hold : s.hapd.addrOf d'.sta = some e.addr := by simp [Hapd.addrOf, he]
    have hsame := h.addrs _ _ hold
    rw [haddr'] at hsame
    exact hnone d' ⟨hold.trans hsame.symm, dia₂, hdia₂, hvalid₂, htoken₂⟩
  · rw [hnew] at hdia₂
    cases hdia₂
    cases hvalid₂

theorem initialReq_local (hinv : HsInv s) (hnone : ∀ d, ¬ Ours x s d)
    (hroom : needsDialog conf x = true → HasRoom s x.sta) :
    let s' := hsExec conf s (.initialReq x.sta x.dialogToken { request := x.request } false {})
    let payload := (conf.payload x.request none).1
    ((∀ d, ¬ Ours x s' d) ∧
        ∃ n, s'.sent = s.sent ++ [⟨x.sta, .initialResp x.dialogToken 0 0 payload, n⟩]) ∨
      Serving x s' payload 0 0 ∧ ∃ delay n, delay ≠ 0 ∧
        s'.sent = s.sent ++ [⟨x.sta, .initialResp x.dialogToken 0 delay [], n⟩] := by
  intro s' payload
  by_cases hneeds : needsDialog conf x = true
  · right
    obtain ⟨s₁, d, heq, hopens⟩ := hs20DialogCreate_opens hinv (hroom hneeds) x.dialogToken
    have hif : conf.gasFragLimit < (conf.payload x.request none).1.length ∨
        conf.gasComebackDelay ≠ 0 := by simpa [needsDialog] using hneeds
    let delay := if conf.gasComebackDelay ≠ 0 then conf.gasComebackDelay else 1
    have hdelay : delay ≠ 0 := by
      by_cases hzero : conf.gasComebackDelay = 0
      · simp [delay, hzero]
      · simp [delay, hzero]
    have hexec : s' =
        (s₁.setDialog d
          { valid := true, dialogToken := x.dialogToken, serial := s.next,
            sdResp := some payload }).sendAction x.sta
          (.initialResp x.dialogToken 0 delay []) (some s.next) := by
      simp [s', hsExec, hs20RxGasInitialReq, hs20ReqLocalProcessing, hif, heq, hopens.opened, payload,
        delay]
    rw [hexec]
    refine ⟨hopens.serving hnone _ rfl rfl rfl, delay, some s.next, hdelay, ?_⟩
    show s₁.sent ++ [_] = s.sent ++ [_]
    rw [hopens.sent]
  · left
    have hif : ¬ (conf.gasFragLimit < (conf.payload x.request none).1.length ∨
        conf.gasComebackDelay ≠ 0) := by simpa [needsDialog] using hneeds
    have hexec : s' = s.sendAction x.sta (.initialResp x.dialogToken 0 0 payload) none := by
      simp [s', hsExec, hs20RxGasInitialReq, hs20ReqLocalProcessing, hif, payload]
    rw [hexec]
    exact ⟨hnone, none, rfl⟩

theorem comebackReq_serving (conf : HsConfig) (hinv : HsInv s)
    (h : Serving x s payload pos fragId) :
    let s' := hsExec conf s (.comebackReq x.sta x.dialogToken {})
    (conf.gasFragLimit < (payload.drop pos).length →
        Serving x s' payload (pos + conf.gasFragLimit) (fragId + 1) ∧ ∃ n,
          s'.sent = s.sent ++ [⟨x.sta, .comebackResp x.dialogToken 0 fragId true
            ((payload.drop pos).take conf.gasFragLimit), n⟩]) ∧
      (¬ conf.gasFragLimit < (payload.drop pos).length →
        (∀ d, ¬ Ours x s' d) ∧ ∃ n,
          s'.sent = s.sent ++ [⟨x.sta, .comebackResp x.dialogToken 0 fragId false
            (payload.drop pos), n⟩]) := by
  obtain ⟨d, dia, hours, hdia, hresp, rfl, rfl, honly⟩ := h
  have hfind := hs20DialogFind_eq_some hinv.table hours honly
  obtain ⟨haddr, dia₁, hdia₁, hvalid, htoken⟩ := hours
  rw [hdia] at hdia₁
  cases hdia₁
  have hrest : dia.rest = payload.drop dia.sdRespPos := by simp [Dialog.rest, hresp]
  -- the other dialogs stay what they are
  have hothers (dia' : Dialog) (d' : DialogRef) (hd : d' ≠ d) : ¬ Ours x (s.setDialog d dia') d' := by
    rintro ⟨haddr', dia₂, hdia₂, hvalid₂⟩
    rw [addrOf_setDialog] at haddr'
    rw [dialog_setDialog_ne hd] at hdia₂
    exact hd (honly d' ⟨haddr', dia₂, hdia₂, hvalid₂⟩)
  have hdresp : dialogResp conf dia true = some dia := by rw [dialogResp, hresp]
  refine ⟨fun hmore => ?_, fun hmore => ?_⟩
  · have hexec : hsExec conf s (.comebackReq x.sta x.dialogToken {}) =
        (s.setDialog d { dia with
          sdFragId := dia.sdFragId + 1, sdRespPos := dia.sdRespPos + conf.gasFragLimit }).sendAction
          x.sta (.comebackResp x.dialogToken 0 dia.sdFragId true
            ((payload.drop dia.sdRespPos).take conf.gasFragLimit)) (some dia.serial) := by
      have hmin : min conf.gasFragLimit (payload.drop dia.sdRespPos).length = conf.gasFragLimit :=
        min_eq_left hmore.le
      simp only [hsExec, hs20RxGasComebackReq, hfind, hdia, Option.getD_some, hdresp, hresp, hrest,
        hmore, decide_true, if_true, setDialog_setDialog, List.length_take, hmin]
      simp
    rw [hexec]
    refine ⟨⟨d, _, ⟨(addrOf_setDialog _ _).trans haddr, _, dialog_setDialog_self hdia _, hvalid,
      htoken⟩, dialog_setDialog_self hdia _, hresp, rfl, rfl, fun d' hd' => ?_⟩, _, rfl⟩
    by_contra hd
    exact hothers _ d' hd hd'
  · have hexec : hsExec conf s (.comebackReq x.sta x.dialogToken {}) =
        (s.setDialog d {}).sendAction x.sta (.comebackResp x.dialogToken 0 dia.sdFragId false
          (payload.drop dia.sdRespPos)) (some dia.serial) := by
      simp only [hsExec, hs20RxGasComebackReq, hfind, hdia, Option.getD_some, hdresp, hresp, hrest,
        hmore, decide_false, setDialog_setDialog, hs20DialogClear]
      simp
    rw [hexec]
    refine ⟨fun d' hd' => ?_, _, rfl⟩
    by_cases hd : d' = d
    · subst hd
      obtain ⟨-, dia₂, hdia₂, hvalid₂, -⟩ := hd'
      rw [dialog_sendAction, dialog_setDialog_self hdia] at hdia₂
      cases hdia₂
      cases hvalid₂
    · exact hothers _ d' hd hd'

end WpaSupplicant.Ap
