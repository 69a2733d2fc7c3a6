import WpaSupplicant.Authenticator.Send
import WpaSupplicant.Authenticator.Receive.Lemmas

namespace WpaSupplicant.Authenticator

open Lib.Octets Lib.Window KeyData

-- What happens to the replay window of a station: `__wpa_send_eapol` gives out a number, and
-- hands out some frames or none; or a frame that is no request is accepted.
inductive WindowEvent where
  | numbered (counter : ReplayCounter) (frames : List EapolKey)
  | accepted (counter : ReplayCounter)
  deriving DecidableEq, Repr

-- What a call of `__wpa_send_eapol` adds to the history: nothing without memory for the frame
def sendEvent (env : Env) (c c' : Ctx) : List WindowEvent :=
  if env.alloc c.tick then
    [.numbered (lastReplayCounter c'.sm) (sentFrames (c'.out.drop c.out.length))]
  else []

-- The history of one association, newest event first, from the zeroed window on. Between the
-- events anything may happen that leaves the window alone.
inductive Association (cr : Crypto) : List WindowEvent → Ctx → Prop where
  | start {c : Ctx} (h : c.sm.keyReplay = List.replicate 4 ⟨0, false⟩) : Association cr [] c
  | other {hist : List WindowEvent} {c c' : Ctx} (h : Association cr hist c)
      (hsame : c'.sm.keyReplay = c.sm.keyReplay) : Association cr hist c'
  | send {hist : List WindowEvent} {c c' : Ctx} (env : Env) (ap : Ap) (keyInfo : KeyInfo)
      (rsc : Option (BitVec 64)) (nonce : Option Nonce) (kde : Option Octets) (keyidx : ℕ)
      (encr : Bool) (h : Association cr hist c)
      (hsend : wpaSendEapolRaw cr env ap keyInfo rsc nonce kde keyidx encr c = c') :
      Association cr (sendEvent env c c' ++ hist) c'
  | accept {hist : List WindowEvent} {c c' : Ctx} (ap : Ap) (f : EapolKey)
      (h : Association cr hist c) (hreq : f.keyInfo.request = false)
      (hpre : receivePre cr ap f c = (c', true)) :
      Association cr (.accepted f.replayCounter :: hist) c'

def numbers : List WindowEvent → List ReplayCounter
  | [] => []
  | .numbered n _ :: hist => n :: numbers hist
  | .accepted _ :: hist => numbers hist

def numbersSinceAccept : List WindowEvent → List ReplayCounter
  | [] => []
  | .numbered n _ :: hist => n :: numbersSinceAccept hist
  | .accepted _ :: _ => []

def accepted : List WindowEvent → List ReplayCounter
  | [] => []
  | .numbered _ _ :: hist => accepted hist
  | .accepted n :: hist => n :: accepted hist

def transmitted : List WindowEvent → List ReplayCounter
  | [] => []
  | .numbered _ frames :: hist => frames.map EapolKey.replayCounter ++ transmitted hist
  | .accepted _ :: hist => transmitted hist

def transmittedSinceAccept : List WindowEvent → List ReplayCounter
  | [] => []
  | .numbered _ frames :: hist =>
    frames.map EapolKey.replayCounter ++ transmittedSinceAccept hist
  | .accepted _ :: _ => []

variable {cr : Crypto} {c : Ctx} {hist : List WindowEvent}

-- An accepted frame that is no request carried a valid number, and the window is retired.
theorem receivePre_retires {ap : Ap} {f : EapolKey} {c' : Ctx} (hreq : f.keyInfo.request = false)
    (hpre : receivePre cr ap f c = (c', true)) :
    wpaReplayCounterValid c.sm f.replayCounter = true ∧
      c'.sm.keyReplay = retire c.sm.keyReplay := by
  obtain ⟨hacc, rfl⟩ := receivePre_true hpre
  refine ⟨?_, ?_⟩
  · have hok := hacc.header
    simp only [receiveHeaderOk, hreq, Bool.and_eq_true] at hok
    exact hok.2
  · rw [Sta.counted, if_neg (by simp [hreq]), Sta.micChecked]
    split <;> rfl

-- The invariant of an association: the window holds the last four numbers, its first slot the
-- last one, and the numbers count up from 1.
structure WindowInv (hist : List WindowEvent) (sm : Sta) : Prop where
  length : sm.keyReplay.length = 4
  outstanding : outstanding sm.keyReplay = (numbersSinceAccept hist).take 4
  last : lastReplayCounter sm = BitVec.ofNat 64 (numbers hist).length

private theorem numbers_length_cons (n : ReplayCounter) (frames : List EapolKey)
    (hist : List WindowEvent) :
    (numbers (.numbered n frames :: hist)).length = (numbers hist).length + 1 := rfl

theorem windowInv_numbered (hist : List WindowEvent) (sm : Sta) (frames : List EapolKey)
    (h : WindowInv hist sm) :
    WindowInv (.numbered (lastReplayCounter sm.numbered) frames :: hist) sm.numbered := by
  obtain ⟨hlen, hout, hlast⟩ := h
  cases hw : sm.keyReplay with
  | nil => simp [hw] at hlen
  | cons s rest =>
    have hnext : lastReplayCounter sm.numbered = incField 8 s.counter := by
      simp [lastReplayCounter, Sta.numbered, hw, push]
    have hhead : s.counter = BitVec.ofNat 64 (numbers hist).length := by
      simpa [lastReplayCounter, hw] using hlast
    refine ⟨by simpa [Sta.numbered] using hlen, ?_, ?_⟩
    · rw [hw] at hout hlen
      rw [numbersSinceAccept, hnext]
      simp [Sta.numbered, hw, outstanding_push, hout, hlen, List.take_take]
    · rw [hnext, hhead, numbers_length_cons, incField_eq 8 _ rfl]
      apply BitVec.eq_of_toNat_eq
      simp

theorem windowInv_accepted (hist : List WindowEvent) (sm sm' : Sta) (n : ReplayCounter)
    (h : WindowInv hist sm) (hretire : sm'.keyReplay = retire sm.keyReplay) :
    WindowInv (.accepted n :: hist) sm' := by
  obtain ⟨hlen, -, hlast⟩ := h
  refine ⟨by simpa [hretire] using hlen, ?_, ?_⟩
  · rw [hretire, outstanding_retire, numbersSinceAccept]
    rfl
  · rw [numbers, ← hlast, lastReplayCounter, lastReplayCounter, hretire]
    cases sm.keyReplay <;> rfl

theorem windowInv_same (hist : List WindowEvent) (sm sm' : Sta) (h : WindowInv hist sm)
    (hsame : sm'.keyReplay = sm.keyReplay) : WindowInv hist sm' := by
  obtain ⟨hlen, hout, hlast⟩ := h
  refine ⟨by rwa [hsame], by rwa [hsame], ?_⟩
  rw [← hlast, lastReplayCounter, lastReplayCounter, hsame]

theorem association_inv (h : Association cr hist c) : WindowInv hist c.sm := by
  induction h with
  | start h =>
    refine ⟨by simp [h], ?_, ?_⟩
    · rw [h]
      rfl
    · rw [lastReplayCounter, h]
      rfl
  | other h hsame ih => exact windowInv_same _ _ _ ih hsame
  | @send hist c c' env ap keyInfo rsc nonce kde keyidx encr h hsend ih =>
    obtain ⟨halloc, heq⟩ | ⟨halloc, grp, tick, out, heq, -, -⟩ :=
      wpaSendEapolRaw_cases cr env ap keyInfo rsc nonce kde keyidx encr c
    · rw [← hsend, heq, sendEvent, halloc]
      exact ih
    · rw [← hsend, heq, sendEvent, halloc]
      exact windowInv_numbered _ _ _ ih
  | accept ap f h hreq hpre ih =>
    exact windowInv_accepted _ _ _ _ ih (receivePre_retires hreq hpre).2

theorem numbers_eq (h : Association cr hist c) :
    numbers hist = (List.range (numbers hist).length).reverse.map
      fun k => BitVec.ofNat 64 (k + 1) := by
  induction h with
  | start h => rfl
  | other h hsame ih => exact ih
  | @send hist c c' env ap keyInfo rsc nonce kde keyidx encr h hsend ih =>
    have hlast := (association_inv (h.send env ap keyInfo rsc nonce kde keyidx encr hsend)).last
    rw [sendEvent] at hlast ⊢
    split
    · rename_i halloc
      rw [if_pos halloc, List.singleton_append, numbers_length_cons] at hlast
      simp only [numbers, List.length_cons, List.range_succ, List.reverse_append,
        List.reverse_singleton, List.map_cons, List.cons_append, List.nil_append, hlast]
      rw [← ih]
    · exact ih
  | accept ap f h hreq hpre ih => exact ih

theorem numbers_increasing (h : Association cr hist c) (hlt : (numbers hist).length < 2 ^ 64) :
    (numbers hist).Pairwise (· > ·) := by
  rw [numbers_eq h, List.pairwise_map, List.pairwise_reverse]
  refine (List.pairwise_lt_range).imp_of_mem ?_
  intro a b ha hb hab
  rw [List.mem_range] at ha hb
  rw [gt_iff_lt, BitVec.lt_def, BitVec.toNat_ofNat, BitVec.toNat_ofNat]
  omega

theorem transmitted_sublist (h : Association cr hist c) : (transmitted hist).Sublist (numbers hist) := by
  induction h with
  | start h => exact List.Sublist.slnil
  | other h hsame ih => exact ih
  | @send hist c c' env ap keyInfo rsc nonce kde keyidx encr h hsend ih =>
    obtain ⟨halloc, heq⟩ | ⟨halloc, grp, tick, out, heq, -, hsends⟩ :=
      wpaSendEapolRaw_cases cr env ap keyInfo rsc nonce kde keyidx encr c
    · rw [sendEvent, halloc]
      exact ih
    rw [← hsend, heq, sendEvent, if_pos halloc, List.singleton_append, transmitted, numbers,
      List.drop_left]
    obtain hnone | hone := sentFrames_of_sends hsends
    · rw [hnone, List.nil_append]
      exact ih.cons _
    · rw [hone]
      exact ih.cons_cons _
  | accept ap f h hreq hpre ih => exact ih

theorem valid_iff (h : Association cr hist c) (n : ReplayCounter) :
    wpaReplayCounterValid c.sm n = true ↔ n ∈ (numbersSinceAccept hist).take 4 := by
  rw [wpaReplayCounterValid, accepts_iff_mem_outstanding, (association_inv h).outstanding]

private theorem numbersSinceAccept_sublist (hist : List WindowEvent) :
    (numbersSinceAccept hist).Sublist (numbers hist) := by
  induction hist with
  | nil => exact List.Sublist.slnil
  | cons e hist ih =>
    cases e with
    | numbered n frames => exact ih.cons_cons _
    | accepted n => exact List.nil_sublist _

theorem accepted_subset_numbers (h : Association cr hist c) : accepted hist ⊆ numbers hist := by
  induction h with
  | start h => exact List.Subset.refl _
  | other h hsame ih => exact ih
  | send env ap keyInfo rsc nonce kde keyidx encr h hsend ih =>
    rw [sendEvent]
    split
    · exact fun a ha => List.mem_cons_of_mem _ (ih ha)
    · exact ih
  | @accept hist c c' ap f h hreq hpre ih =>
    have hmem := (valid_iff h _).mp (receivePre_retires hreq hpre).1
    exact List.cons_subset.mpr
      ⟨(numbersSinceAccept_sublist hist).subset (List.mem_of_mem_take hmem), ih⟩

theorem accepted_lt (h : Association cr hist c) (hlt : (numbers hist).length < 2 ^ 64) :
    ∀ a ∈ accepted hist, ∀ n ∈ numbersSinceAccept hist, a < n := by
  induction h with
  | start h => simp [accepted]
  | other h hsame ih => exact ih hlt
  | @send hist c c' env ap keyInfo rsc nonce kde keyidx encr h hsend ih =>
    have hinc := numbers_increasing (h.send env ap keyInfo rsc nonce kde keyidx encr hsend) hlt
    rw [sendEvent] at hlt hinc ⊢
    split
    · rename_i halloc
      rw [if_pos halloc, List.singleton_append] at hlt hinc
      rw [numbers_length_cons] at hlt
      intro a ha n hn
      obtain rfl | hn := List.mem_cons.mp hn
      · exact List.rel_of_pairwise_cons hinc (accepted_subset_numbers h ha)
      · exact ih (by omega) a ha n hn
    · rename_i halloc
      rw [if_neg halloc] at hlt
      exact ih hlt
  | accept ap f h hreq hpre ih => simp [numbersSinceAccept]

theorem accepted_increasing (h : Association cr hist c) (hlt : (numbers hist).length < 2 ^ 64) :
    (accepted hist).Pairwise (· > ·) := by
  induction h with
  | start h => exact List.Pairwise.nil
  | other h hsame ih => exact ih hlt
  | send env ap keyInfo rsc nonce kde keyidx encr h hsend ih =>
    rw [sendEvent] at hlt ⊢
    split
    · rename_i halloc
      rw [if_pos halloc, List.singleton_append, numbers_length_cons] at hlt
      exact ih (by omega)
    · rename_i halloc
      rw [if_neg halloc] at hlt
      exact ih hlt
  | @accept hist c c' ap f h hreq hpre ih =>
    have hmem := (valid_iff h _).mp (receivePre_retires hreq hpre).1
    refine List.pairwise_cons.mpr ⟨fun a ha => ?_, ih hlt⟩
    exact accepted_lt h hlt a ha _ (List.mem_of_mem_take hmem)

-- The replay window of an association. A frame is accepted exactly if its number is one of the
-- last four that `__wpa_send_eapol` gave out and was given out after the last acceptance.
theorem replay_window {cr : Crypto} {hist : List WindowEvent} {c : Ctx}
    (h : Association cr hist c) :
    (∀ n, wpaReplayCounterValid c.sm n = true ↔ n ∈ (numbersSinceAccept hist).take 4) ∧
    (transmitted hist).Sublist (numbers hist) ∧
    ((numbers hist).length < 2 ^ 64 →
      (numbers hist).Pairwise (· > ·) ∧ (transmitted hist).Pairwise (· > ·) ∧
      (accepted hist).Pairwise (· > ·) ∧
      ∀ a ∈ accepted hist, ∀ n ∈ numbersSinceAccept hist, a < n) := by
  refine ⟨valid_iff h, transmitted_sublist h, fun hlt => ?_⟩
  have hinc := numbers_increasing h hlt
  exact ⟨hinc, hinc.sublist (transmitted_sublist h), accepted_increasing h hlt, accepted_lt h hlt⟩

private def plainAp : Ap where
  conf := { protos := [.rsn], wpaKeyMgmt := [.psk], wpaPairwise := [], wpaGroup := .ccmp,
            rsnPairwise := [.ccmp] }
  addr := 1
  wpaIe := []

private def freshSta : Ctx :=
  ⟨{ group := 0, addr := 2, wpa := some .rsn, pairwise := some .ccmp, wpaKeyMgmt := .psk },
    { vlanId := 0, gtkLen := 16 }, 0, []⟩

private def waitingSta : Ctx :=
  { freshSta with sm := { freshSta.sm with ptkState := .ptkstart, wpaIe := some [48, 0] } }

private def sendMsg1 (r : List WindowEvent × Ctx) : List WindowEvent × Ctx :=
  let c := wpaSendEapolRaw Crypto.transparent .benign plainAp
    (KeyInfo.ackBit ||| KeyInfo.keyTypeBit) none (some 5) none 0 false r.2
  (sendEvent .benign r.2 c ++ r.1, c)

private def fiveSends : List WindowEvent × Ctx := sendMsg1^[5] ([], waitingSta)

private def thirdReply : EapolKey where
  hdrVersion := 2
  hdrType := ieee8021xTypeEapolKey
  hdrLength := 97
  type := eapolKeyTypeRsn
  keyInfo := KeyInfo.typeHmacSha1Aes ||| KeyInfo.keyTypeBit ||| KeyInfo.micBit
  keyLength := 0
  replayCounter := 3
  keyNonce := 7
  keyIv := 0
  keyRsc := 0
  keyId := 0
  keyMic := 0
  keyDataLength := 2
  keyData := [48, 0]

private def afterReply : List WindowEvent × Ctx :=
  sendMsg1 (.accepted 3 :: fiveSends.1, (receivePre .transparent plainAp thirdReply fiveSends.2).1)

-- Of five messages 1/4 the last four may be answered; after an answer only what is sent then.
theorem replay_window_five_sends :
    numbersSinceAccept fiveSends.1 = [5, 4, 3, 2, 1] ∧
    (∀ n, wpaReplayCounterValid fiveSends.2.sm n = true ↔
      n ∈ (numbersSinceAccept fiveSends.1).take 4) ∧
    transmitted afterReply.1 = [6, 5, 4, 3, 2, 1] ∧ accepted afterReply.1 = [3] ∧
    numbersSinceAccept afterReply.1 = [6] ∧
    ∀ n, wpaReplayCounterValid afterReply.2.sm n = true ↔
      n ∈ (numbersSinceAccept afterReply.1).take 4 := by
  have hsend (r : List WindowEvent × Ctx) (h : Association .transparent r.1 r.2) :
      Association .transparent (sendMsg1 r).1 (sendMsg1 r).2 :=
    h.send .benign plainAp (KeyInfo.ackBit ||| KeyInfo.keyTypeBit) none (some 5) none 0 false rfl
  have hfive : Association .transparent fiveSends.1 fiveSends.2 :=
    hsend _ (hsend _ (hsend _ (hsend _ (hsend _ (.start rfl)))))
  have haccepted : (receivePre .transparent plainAp thirdReply fiveSends.2).2 = true := by decide
  have hafter : Association .transparent afterReply.1 afterReply.2 :=
    hsend _ (hfive.accept plainAp thirdReply (by decide) (Prod.ext rfl haccepted))
  exact ⟨by decide, (replay_window hfive).1, by decide, by decide, by decide, (replay_window hafter).1⟩

-- A frame that needs a MIC while there is no valid PTK does not go out, and its number is
-- accepted all the same.
theorem not_valid_iff_transmitted :
    let c := wpaSendEapolRaw Crypto.transparent .benign plainAp
      (KeyInfo.micBit ||| KeyInfo.ackBit) none none none 0 false freshSta
    Association Crypto.transparent (sendEvent .benign freshSta c ++ []) c ∧
      wpaReplayCounterValid c.sm 1 = true ∧
      transmittedSinceAccept (sendEvent .benign freshSta c ++ []) = [] := by
  refine ⟨(Association.start rfl).send .benign plainAp (KeyInfo.micBit ||| KeyInfo.ackBit) none none
    none 0 false rfl, ?_, ?_⟩
  all_goals decide

end WpaSupplicant.Authenticator
