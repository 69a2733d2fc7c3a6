import WpaSupplicant.Wps.Proof.Registrar
import WpaSupplicant.Wps.Proof.Enrollee

namespace WpaSupplicant.Wps

open Lib.Machine Lib.History Lib.Octets
open Enrollee (saveMsg)

section Invariant

variable (c : Crypto)

def RegistrarInv (log : List Entry) (wps : WpsData) : Prop :=
  match wps.state with
  | .recvM3 => Keyed c log wps ∧ wps.devPassword.isSome
  | .sendM4 => Keyed c log wps ∧ wps.devPassword.isSome ∧ Committed c log wps
  | .recvM5 => Keyed c log wps ∧ PskDerived c wps ∧ Committed c log wps
  | .sendM6 | .recvM7 => Keyed c log wps ∧ PskDerived c wps ∧ FirstProved c log wps
  | .sendM8 => Keyed c log wps ∧ PskDerived c wps ∧ SecondProved c log wps
  | _ => True

def HasKey (log : List Entry) (wps : WpsData) : Prop :=
  ∃ priv pub, wps.dhPrivkey = some priv ∧ wps.dhPubkeyE = some pub ∧ OwnKey log priv pub

def EnrolleeInv (log : List Entry) (wps : WpsData) : Prop :=
  match wps.state with
  | .recvM2 | .receivedM2d => HasKey log wps
  | .sendM3 => Keyed c log wps
  | .recvM4 => Keyed c log wps ∧ PskDerived c wps
  | .sendM5 | .recvM6 => Keyed c log wps ∧ PskDerived c wps ∧ FirstProved c log wps
  | .sendM7 => Keyed c log wps ∧ PskDerived c wps ∧ SecondProved c log wps
  | _ => True

def Inv (s : Session) : Prop :=
  if s.data.registrar then RegistrarInv c s.log s.data else EnrolleeInv c s.log s.data

end Invariant

section Lemmas

variable {c : Crypto} {log : List Entry} {e : Entry} {wps : WpsData}

theorem SameSecrets.base_eq (h : SameSecrets wps e) : base e.1 = base wps := by
  unfold base
  rw [h.1, h.2]

theorem SameSecrets.commitment (h : SameSecrets wps e) : SameCommitment wps e :=
  ⟨h.base_eq, by rw [h.1], by rw [h.1]⟩

-- What is known stays known while it is about the same secrets.
theorem Committed.kept (h : Committed c log e.1) (hsame : SameCommitment wps e) :
    Committed c (e :: log) wps := by
  obtain ⟨hbase, hh1, hh2⟩ := id hsame
  refine .later hsame (h.mono (fun x hx => ?_) (fun x l hx => ?_))
  · exact ⟨hx.1.trans hbase, hx.2.1.trans hh1, hx.2.2.trans hh2⟩
  · rw [← hh1, ← hh2, ← hbase]
    exact hx

theorem SameSecrets.trans {x : Entry} (hx : SameSecrets e.1 x) (h : SameSecrets wps e) :
    SameSecrets wps x := ⟨hx.1.trans h.1, hx.2.trans h.2⟩

theorem FirstProved.kept (h : FirstProved c log e.1) (hsame : SameSecrets wps e)
    (hreg : wps.registrar = e.1.registrar) : FirstProved c (e :: log) wps := by
  unfold FirstProved at h ⊢
  rw [hreg]
  split
  · rename_i hr
    rw [if_pos hr] at h
    exact .later hsame (h.mono (fun x hx => hx.trans hsame)
      (fun x l hx => ⟨hx.1.trans hsame, hx.2⟩))
  rename_i hr
  rw [if_neg hr] at h
  refine .later hsame (h.mono (fun x hx => hx.trans hsame) (fun x l hx => ?_))
  rw [← hsame.base_eq, ← hsame.1]
  exact hx

theorem SecondProved.kept (h : SecondProved c log e.1) (hsame : SameSecrets wps e)
    (hreg : wps.registrar = e.1.registrar) : SecondProved c (e :: log) wps := by
  unfold SecondProved at h ⊢
  rw [hreg]
  exact .later hsame (h.mono (fun x hx => hx.trans hsame) (fun x l hx => ⟨hx.1.trans hsame, hx.2⟩))

theorem PskDerived.kept (h : PskDerived c e.1) (hsame : SameSecrets wps e) : PskDerived c wps := by
  unfold PskDerived at h ⊢
  rw [← hsame.1]
  exact h

theorem OwnKey.cons {priv pub : Octets} (h : OwnKey log priv pub) : OwnKey (e :: log) priv pub := by
  obtain ⟨x, hx, hdh⟩ := h
  exact ⟨x, List.mem_cons_of_mem _ hx, hdh⟩

theorem Keyed.kept (h : Keyed c log e.1) (hbase : base e.1 = base wps)
    (hreg : wps.registrar = e.1.registrar) : Keyed c (e :: log) wps := by
  obtain ⟨priv, pub, peer, shared, hown, hpub, hpeer, hshared, hkeys⟩ := h
  simp only [base, Prod.mk.injEq, Secrets.mk.injEq] at hbase
  obtain ⟨⟨hauth, hwrap, -, -, -, -, hpke, hpkr, -, hne, hnr⟩, haddr⟩ := hbase
  refine ⟨priv, pub, peer, shared, hown.cons, ?_, ?_, hshared, ?_⟩
  · unfold ownPubkey at hpub ⊢
    rw [hreg, ← hpke, ← hpkr]
    exact hpub
  · unfold peerPubkey at hpeer ⊢
    rw [hreg, ← hpke, ← hpkr]
    exact hpeer
  · rw [← hauth, ← hwrap, ← hne, ← hnr, ← haddr]
    exact hkeys

theorem Keyed.weaken (h : Keyed c [e] wps) : Keyed c (e :: log) wps := by
  obtain ⟨priv, pub, peer, shared, ⟨x, hx, hdh⟩, hrest⟩ := h
  refine ⟨priv, pub, peer, shared, ⟨x, ?_, hdh⟩, hrest⟩
  rw [List.mem_singleton] at hx
  exact hx ▸ List.mem_cons_self

end Lemmas

section Step

variable {c : Crypto} {log : List Entry} {e : Entry} {wps : WpsData}

theorem RegistrarInv.stay (h : RegistrarInv c log e.1) (hstate : wps.state = e.1.state)
    (hsame : SameSecrets wps e) (hreg : wps.registrar = e.1.registrar) :
    RegistrarInv c (e :: log) wps := by
  have hpass : e.1.devPassword.isSome = true → wps.devPassword.isSome = true := by
    rw [hsame.1]
    exact id
  unfold RegistrarInv at h ⊢
  rw [hstate]
  cases hs : e.1.state <;> simp only [hs] at h ⊢
  case recvM3 => exact ⟨h.1.kept hsame.base_eq hreg, hpass h.2⟩
  case sendM4 => exact ⟨h.1.kept hsame.base_eq hreg, hpass h.2.1, h.2.2.kept hsame.commitment⟩
  case recvM5 => exact ⟨h.1.kept hsame.base_eq hreg, h.2.1.kept hsame, h.2.2.kept hsame.commitment⟩
  case sendM6 | recvM7 | sendM8 =>
    exact ⟨h.1.kept hsame.base_eq hreg, h.2.1.kept hsame, h.2.2.kept hsame hreg⟩

theorem RegistrarInv.of_untracked (h : Registrar.tracked wps.state = false) : RegistrarInv c log wps := by
  unfold RegistrarInv
  cases hs : wps.state <;> simp only [hs] at h ⊢ <;> cases h

theorem registrarInv_step (hinv : RegistrarInv c log e.1) (hreg : wps.registrar = e.1.registrar)
    (hregistrar : wps.registrar = true) (h : Registrar.Transition c e wps) :
    RegistrarInv c (e :: log) wps := by
  cases h with
  | stay hstate h => exact hinv.stay hstate h hreg
  | ended hstate => exact .of_untracked hstate
  | m2 hstate hkeyed hpass =>
    simp only [RegistrarInv, hstate]
    exact ⟨hkeyed.weaken, hpass⟩
  | m3 hbefore hstate h hbase =>
    simp only [RegistrarInv, hbefore] at hinv
    simp only [RegistrarInv, hstate]
    have hpass : e.1.devPassword = wps.devPassword := congrArg (·.1.devPassword) hbase
    exact ⟨hinv.1.kept hbase hreg, hpass ▸ hinv.2, .now ⟨h, hbase⟩⟩
  | m4 hbefore hstate h hpsk hpsk2 =>
    simp only [RegistrarInv, hbefore] at hinv
    have hpass : e.1.devPassword = wps.devPassword := congrArg (·.1.devPassword) h.1
    obtain ⟨hkeyed, hsome, hcommitted⟩ := hinv
    rcases hstate with hstate | hstate
    · simp only [RegistrarInv, hstate]
      exact ⟨hkeyed.kept h.1 hreg, hpass ▸ hsome, hcommitted.kept h⟩
    simp only [RegistrarInv, hstate]
    obtain ⟨passwd, hpasswd⟩ := Option.isSome_iff_exists.mp hsome
    rw [← hpass, hpasswd, Option.getD_some] at hpsk hpsk2
    exact ⟨hkeyed.kept h.1 hreg, ⟨passwd, hpass ▸ hpasswd, hpsk, hpsk2⟩, hcommitted.kept h⟩
  | m5 hstate h hsame =>
    simp only [RegistrarInv, h.1] at hinv
    simp only [RegistrarInv, hstate]
    refine ⟨hinv.1.kept hsame.base_eq hreg, hinv.2.1.kept hsame, ?_⟩
    unfold FirstProved
    rw [if_pos hregistrar]
    exact .now ⟨hsame, h, hinv.2.2⟩
  | m6 hbefore hstate hsame =>
    simp only [RegistrarInv, hbefore] at hinv
    simp only [RegistrarInv, hstate]
    exact ⟨hinv.1.kept hsame.base_eq hreg, hinv.2.1.kept hsame, hinv.2.2.kept hsame hreg⟩
  | m7 hstate h hsame =>
    simp only [RegistrarInv, h.1] at hinv
    simp only [RegistrarInv, hstate]
    refine ⟨hinv.1.kept hsame.base_eq hreg, hinv.2.1.kept hsame, ?_⟩
    exact .now ⟨hsame, by rw [if_pos hregistrar]; exact h, hinv.2.2⟩

theorem HasKey.kept (h : HasKey log e.1) (hsame : SameSecrets wps e)
    (hpriv : wps.dhPrivkey = e.1.dhPrivkey) : HasKey (e :: log) wps := by
  obtain ⟨priv, pub, hp, hpub, hown⟩ := h
  refine ⟨priv, pub, hpriv.trans hp, ?_, hown.cons⟩
  rw [← hsame.1]
  exact hpub

theorem EnrolleeInv.stay (h : EnrolleeInv c log e.1) (hstate : wps.state = e.1.state)
    (hsame : SameSecrets wps e) (hpriv : wps.dhPrivkey = e.1.dhPrivkey)
    (hreg : wps.registrar = e.1.registrar) : EnrolleeInv c (e :: log) wps := by
  unfold EnrolleeInv at h ⊢
  rw [hstate]
  cases hs : e.1.state <;> simp only [hs] at h ⊢
  case recvM2 => exact h.kept hsame hpriv
  case receivedM2d => exact h.kept hsame hpriv
  case sendM3 => exact h.kept hsame.base_eq hreg
  case recvM4 => exact ⟨h.1.kept hsame.base_eq hreg, h.2.kept hsame⟩
  case sendM5 | recvM6 | sendM7 =>
    exact ⟨h.1.kept hsame.base_eq hreg, h.2.1.kept hsame, h.2.2.kept hsame hreg⟩

theorem EnrolleeInv.of_untracked (h : Enrollee.tracked wps.state = false) : EnrolleeInv c log wps := by
  unfold EnrolleeInv
  cases hs : wps.state <;> simp only [hs] at h ⊢ <;> cases h

theorem enrolleeInv_waits (h : Enrollee.waits wps.state) : EnrolleeInv c log wps ↔ HasKey log wps := by
  rcases h with h | h <;> simp only [EnrolleeInv, h]

theorem enrolleeInv_step (hinv : EnrolleeInv c log e.1) (hreg : wps.registrar = e.1.registrar)
    (hregistrar : wps.registrar = false) (h : Enrollee.Transition c e wps) :
    EnrolleeInv c (e :: log) wps := by
  cases h with
  | stay hstate h hpriv => exact hinv.stay hstate h hpriv hreg
  | ended hstate => exact .of_untracked hstate
  | m1 hstate priv pub hpriv hpub hdh =>
    exact (enrolleeInv_waits (.inl hstate)).mpr
      ⟨priv, pub, hpriv, hpub, e, List.mem_cons_self, hdh⟩
  | m2d hbefore hstate h hpriv =>
    exact (enrolleeInv_waits hstate).mpr (((enrolleeInv_waits hbefore).mp hinv).kept h hpriv)
  | m2 hbefore hstate priv peer shared hpriv hpub hpeer hshared hkeys =>
    obtain ⟨priv', pub, hpriv', hpub', hown⟩ := (enrolleeInv_waits (.inl hbefore)).mp hinv
    obtain rfl : priv' = priv := Option.some.inj (hpriv'.symm.trans hpriv)
    simp only [EnrolleeInv, hstate]
    refine ⟨priv', pub, peer, shared, hown.cons, ?_, ?_, hshared, hkeys⟩
    · simp [ownPubkey, hregistrar, hpub, hpub']
    · simp [peerPubkey, hregistrar, hpeer]
  | m3 hbefore hstate hbase hpsk =>
    simp only [EnrolleeInv, hbefore] at hinv
    rcases hstate with hstate | hstate
    · simp only [EnrolleeInv, hstate]
      exact hinv.kept hbase hreg
    · simp only [EnrolleeInv, hstate]
      exact ⟨hinv.kept hbase hreg, hpsk⟩
  | m4 hstate h hbase hpsk1 hpsk2 =>
    simp only [EnrolleeInv, h.1] at hinv
    simp only [EnrolleeInv, hstate]
    have hpass : e.1.devPassword = wps.devPassword := congrArg (·.1.devPassword) hbase
    have hauth : e.1.authkey = wps.authkey := congrArg (·.1.authkey) hbase
    refine ⟨hinv.1.kept hbase hreg, ?_, ?_⟩
    · unfold PskDerived
      rw [← hpass, ← hauth, ← hpsk1, ← hpsk2]
      exact hinv.2
    · unfold FirstProved
      rw [if_neg (by simp [hregistrar])]
      exact .now ⟨h, hbase, hpsk1, hpsk2⟩
  | m5 hbefore hstate hsame =>
    simp only [EnrolleeInv, hbefore] at hinv
    simp only [EnrolleeInv, hstate]
    exact ⟨hinv.1.kept hsame.base_eq hreg, hinv.2.1.kept hsame, hinv.2.2.kept hsame hreg⟩
  | m6 hstate h hsame =>
    simp only [EnrolleeInv, h.1] at hinv
    simp only [EnrolleeInv, hstate]
    refine ⟨hinv.1.kept hsame.base_eq hreg, hinv.2.1.kept hsame, ?_⟩
    exact .now ⟨hsame, by rw [if_neg (by simp [hregistrar])]; exact h, hinv.2.2⟩

theorem inv_exec (s : Session) (step : Step) (h : Inv c s) : Inv c (exec c s step) := by
  unfold Inv at h ⊢
  cases hreg : s.data.registrar with
  | true =>
    obtain ⟨hreg', htrans⟩ : RegistrarStep c (s.data, step) (stepData c s.data step) :=
      registrar_step hreg
    rw [hreg, if_pos rfl] at h
    simp only [exec, hreg', if_true]
    exact registrarInv_step h (hreg'.trans hreg.symm) hreg' htrans
  | false =>
    obtain ⟨hreg', htrans⟩ : EnrolleeStep c (s.data, step) (stepData c s.data step) :=
      enrollee_step hreg
    rw [hreg, if_neg (by simp)] at h
    simp only [exec, hreg', Bool.false_eq_true, if_false]
    exact enrolleeInv_step h (hreg'.trans hreg.symm) hreg' htrans

theorem inv_init (ctx : Context) (cfg : Config) : Inv c ⟨init ctx cfg, []⟩ := by
  unfold Inv
  cases hreg : cfg.registrar with
  | true => simp [init, hreg, RegistrarInv]
  | false => simp [init, hreg, EnrolleeInv]

end Step

section Types

variable {c : Crypto} {env : Env} {ctx : Context} {wps : WpsData} {type type' : BitVec 8} {msg : Octets}

-- The types of the messages that `wps_get_msg` builds in a state
def sentTypes (registrar : Bool) (state : State) : List (BitVec 8) :=
  match registrar, state with
  | true, .sendM2 => [m2, m2d]
  | true, .sendM2d => [m2d]
  | true, .sendM4 => [m4]
  | true, .sendM6 => [m6]
  | true, .sendM8 => [m8]
  | true, .recvDone => [wscAck]
  | true, .sendWscNack => [wscNack]
  | false, .sendM1 => [m1]
  | false, .sendM3 => [m3]
  | false, .sendM5 => [m5]
  | false, .sendM7 => [m7]
  | false, .receivedM2d => [wscAck, wscNack]
  | false, .sendWscNack => [wscNack]
  | false, .msgDone => [wscDone]
  | _, _ => []

theorem encode_append (l l' : List (ℕ × Octets)) : encode (l ++ l') = encode l ++ encode l' := by
  simp [encode]

theorem isMsg_encode (rest : List (ℕ × Octets)) (tail : Octets) :
    IsMsg type (encode (buildVersion :: buildMsgType type :: rest) ++ tail) := by
  refine ⟨encode rest ++ tail, ?_⟩
  rw [← List.append_assoc, ← encode_append]
  rfl

theorem isMsg_buildAuthenticator {rest : List (ℕ × Octets)}
    (h : buildAuthenticator c wps (encode (buildVersion :: buildMsgType type :: rest)) = some msg) :
    IsMsg type msg := by
  obtain ⟨last, -, rfl⟩ := Option.map_eq_some_iff.mp h
  exact isMsg_encode rest _

theorem isMsg_buildSecured {rest : List (ℕ × Octets)} {plain : Octets}
    (h : buildSecured c env ctx wps (buildVersion :: buildMsgType type :: rest) plain = some msg) :
    IsMsg type msg := by
  unfold buildSecured at h
  split at h
  · cases h
  · exact isMsg_buildAuthenticator h

theorem IsMsg.unique (h : IsMsg type msg) (h' : IsMsg type' msg) : type = type' := by
  have hlen : (encode [buildVersion, buildMsgType type]).length =
      (encode [buildVersion, buildMsgType type']).length := by
    simp [encode, tlv, buildVersion, buildMsgType]
  have heq := (List.prefix_of_prefix_length_le h h' hlen.le).eq_of_length hlen
  have hoctets : putBE 1 type = putBE 1 type' := by
    simpa [encode, tlv, buildVersion, buildMsgType] using heq
  calc type = getBE 8 (putBE 1 type) := (getBE_putBE 1 type rfl).symm
    _ = getBE 8 (putBE 1 type') := by rw [hoctets]
    _ = type' := getBE_putBE 1 type' rfl

variable {op : OpCode}

theorem saveMsg_eq_some {r : WpsData × Option Octets} (h : (saveMsg env r).2 = some (op, msg)) :
    r.2 = some msg := by
  unfold saveMsg at h
  split at h
  · cases h
  rename_i m hm
  cases h
  exact hm

theorem isMsg_buildM2 (h : (Registrar.buildM2 c env ctx wps).2 = some msg) : IsMsg m2 msg := by
  unfold Registrar.buildM2 at h
  split at h
  · cases h
  dsimp only at h
  split at h
  · cases h
  split at h
  · cases h
  split at h
  · cases h
  split at h
  · cases h
  rename_i hauth
  cases h
  exact isMsg_buildAuthenticator hauth

theorem isMsg_buildM2d (h : (Registrar.buildM2d env ctx wps).2 = some msg) : IsMsg m2d msg := by
  unfold Registrar.buildM2d at h
  split at h
  · cases h
  cases h
  rw [← List.append_nil (encode _)]
  exact isMsg_encode _ _

theorem isMsg_buildM4 (h : (Registrar.buildM4 c env ctx wps).2 = some msg) : IsMsg m4 msg := by
  unfold Registrar.buildM4 at h
  dsimp only at h
  split at h
  · cases h
  split at h
  · cases h
  split at h
  · cases h
  rename_i hmsg
  cases h
  exact isMsg_buildSecured hmsg

theorem isMsg_buildM6 (h : (Registrar.buildM6 c env ctx wps).2 = some msg) : IsMsg m6 msg := by
  unfold Registrar.buildM6 at h
  split at h
  · cases h
  split at h
  · cases h
  rename_i hmsg
  cases h
  exact isMsg_buildSecured hmsg

theorem isMsg_buildM8 (h : (Registrar.buildM8 c env ctx wps).2 = some msg) : IsMsg m8 msg := by
  unfold Registrar.buildM8 at h
  split at h
  · cases h
  split at h
  · cases h
  split at h
  · cases h
  rename_i hmsg
  cases h
  exact isMsg_buildSecured hmsg

theorem isMsg_buildM1 (h : (Enrollee.buildM1 env ctx wps).2 = some msg) : IsMsg m1 msg := by
  unfold Enrollee.buildM1 at h
  split at h
  · cases h
  dsimp only at h
  split at h
  · cases h
  split at h
  · cases h
  cases h
  rw [← List.append_nil (encode _)]
  exact isMsg_encode _ _

theorem isMsg_buildM3 (h : (Enrollee.buildM3 c env ctx wps).2 = some msg) : IsMsg m3 msg := by
  unfold Enrollee.buildM3 at h
  split at h
  · cases h
  dsimp only at h
  split at h
  · cases h
  split at h
  · cases h
  split at h
  · cases h
  rename_i hmsg
  cases h
  exact isMsg_buildAuthenticator hmsg

theorem isMsg_buildEncrypted {plain : Octets} {next : State}
    (h : (Enrollee.buildEncrypted c env ctx wps type plain next).2 = some msg) : IsMsg type msg := by
  unfold Enrollee.buildEncrypted at h
  split at h
  · cases h
  split at h
  · cases h
  rename_i hmsg
  cases h
  exact isMsg_buildSecured hmsg

theorem isMsg_buildWscAck (h : buildWscAck env ctx wps = some msg) : IsMsg wscAck msg := by
  unfold buildWscAck at h
  split at h
  · cases h
  cases h
  rw [← List.append_nil (encode _)]
  exact isMsg_encode _ _

theorem isMsg_buildWscNack (h : buildWscNack env ctx wps = some msg) : IsMsg wscNack msg := by
  unfold buildWscNack at h
  split at h
  · cases h
  cases h
  rw [← List.append_nil (encode _)]
  exact isMsg_encode _ _

theorem isMsg_buildWscDone (h : (Enrollee.buildWscDone env ctx wps).2.1 = some msg) :
    IsMsg wscDone msg := by
  unfold Enrollee.buildWscDone at h
  split at h
  · cases h
  dsimp only at h
  split at h
  · cases h
    rw [← List.append_nil (encode _)]
    exact isMsg_encode _ _
  · cases h
    rw [← List.append_nil (encode _)]
    exact isMsg_encode _ _

theorem registrar_sentTypes (h : (Registrar.getMsg c env ctx wps).2.1 = some (op, msg)) :
    ∃ type ∈ sentTypes true wps.state, IsMsg type msg := by
  unfold Registrar.getMsg at h
  split at h <;> rename_i hstate
  · rw [hstate]
    unfold Registrar.answerM1 at h
    have hmsg := saveMsg_eq_some h
    split at hmsg
    · exact ⟨m2, by simp [sentTypes], isMsg_buildM2 hmsg⟩
    · exact ⟨m2d, by simp [sentTypes], isMsg_buildM2d hmsg⟩
  · rw [hstate]
    exact ⟨m2d, by simp [sentTypes], isMsg_buildM2d (saveMsg_eq_some h)⟩
  · rw [hstate]
    exact ⟨m4, by simp [sentTypes], isMsg_buildM4 (saveMsg_eq_some h)⟩
  · rw [hstate]
    exact ⟨m6, by simp [sentTypes], isMsg_buildM6 (saveMsg_eq_some h)⟩
  · rw [hstate]
    exact ⟨m8, by simp [sentTypes], isMsg_buildM8 (saveMsg_eq_some h)⟩
  · rw [hstate]
    obtain ⟨m, hm, heq⟩ := Option.map_eq_some_iff.mp h
    cases heq
    exact ⟨wscAck, by simp [sentTypes], isMsg_buildWscAck hm⟩
  · rw [hstate]
    obtain ⟨m, hm, heq⟩ := Option.map_eq_some_iff.mp h
    cases heq
    exact ⟨wscNack, by simp [sentTypes], isMsg_buildWscNack hm⟩
  · cases h

theorem enrollee_sentTypes (h : (Enrollee.getMsg c env ctx wps).2.1 = some (op, msg)) :
    ∃ type ∈ sentTypes false wps.state, IsMsg type msg := by
  unfold Enrollee.getMsg at h
  split at h <;> rename_i hstate
  · rw [hstate]
    exact ⟨m1, by simp [sentTypes], isMsg_buildM1 (saveMsg_eq_some h)⟩
  · rw [hstate]
    exact ⟨m3, by simp [sentTypes], isMsg_buildM3 (saveMsg_eq_some h)⟩
  · rw [hstate]
    exact ⟨m5, by simp [sentTypes], isMsg_buildEncrypted (saveMsg_eq_some h)⟩
  · rw [hstate]
    exact ⟨m7, by simp [sentTypes], isMsg_buildEncrypted (saveMsg_eq_some h)⟩
  · rw [hstate]
    split at h
    · obtain ⟨m, hm, heq⟩ := Option.map_eq_some_iff.mp h
      cases heq
      exact ⟨wscNack, by simp [sentTypes], isMsg_buildWscNack hm⟩
    split at h
    · cases h
    rename_i hm
    cases h
    exact ⟨wscAck, by simp [sentTypes], isMsg_buildWscAck hm⟩
  · rw [hstate]
    obtain ⟨m, hm, heq⟩ := Option.map_eq_some_iff.mp h
    cases heq
    exact ⟨wscNack, by simp [sentTypes], isMsg_buildWscNack hm⟩
  · rw [hstate]
    obtain ⟨m, hm, heq⟩ := Option.map_eq_some_iff.mp h
    cases heq
    exact ⟨wscDone, by simp [sentTypes], isMsg_buildWscDone hm⟩
  · cases h

theorem getMsg_sentTypes (h : (getMsg c env ctx wps).2.1 = some (op, msg)) :
    ∃ type ∈ sentTypes wps.registrar wps.state, IsMsg type msg := by
  unfold getMsg at h
  split at h
  · rename_i hreg
    rw [hreg]
    exact registrar_sentTypes h
  rename_i hreg
  rw [Bool.not_eq_true] at hreg
  rw [hreg]
  exact enrollee_sentTypes h

end Types

def Proved (c : Crypto) (s : Session) (registrar : Bool) (half : List Entry → WpsData → Prop) : Prop :=
  s.data.registrar = registrar ∧ Keyed c s.log s.data ∧ PskDerived c s.data ∧ half s.log s.data

theorem sentTypes_secret {registrar : Bool} {state : State} :
    (m6 ∈ sentTypes registrar state → registrar = true ∧ state = .sendM6) ∧
    (m8 ∈ sentTypes registrar state → registrar = true ∧ state = .sendM8) ∧
    (m5 ∈ sentTypes registrar state → registrar = false ∧ state = .sendM5) ∧
    (m7 ∈ sentTypes registrar state → registrar = false ∧ state = .sendM7) := by
  cases registrar <;> cases state <;> decide

-- In every run, a message that tells a secret is sent only after the peer has proved that it knows the
-- half of the password that the secret is for.
theorem secrets_told_against_proof (c : Crypto) (ctx : Context) (cfg : Config) (s : Session)
    (hrun : Runs (exec c) (fun _ _ => True) ⟨init ctx cfg, []⟩ s) (env : Env) (ctx' : Context)
    (op : OpCode) (msg : Octets) (hsend : (getMsg c env ctx' s.data).2.1 = some (op, msg)) :
    (IsMsg m6 msg → Proved c s true (FirstProved c)) ∧
    (IsMsg m8 msg → Proved c s true (SecondProved c)) ∧
    (IsMsg m5 msg → Proved c s false (FirstProved c)) ∧
    (IsMsg m7 msg → Proved c s false (SecondProved c)) := by
  have hinv : Inv c s := hrun.rule (inv_init ctx cfg) (fun s step h _ => inv_exec s step h)
  obtain ⟨type, htype, hmsg⟩ := getMsg_sentTypes hsend
  obtain ⟨h6, h8, h5, h7⟩ : (m6 ∈ sentTypes s.data.registrar s.data.state → _) ∧ _ :=
    sentTypes_secret
  unfold Inv at hinv
  refine ⟨fun h => ?_, fun h => ?_, fun h => ?_, fun h => ?_⟩
  · obtain ⟨hreg, hstate⟩ := h6 (h.unique hmsg ▸ htype)
    rw [hreg, if_pos rfl] at hinv
    simp only [RegistrarInv, hstate] at hinv
    exact ⟨hreg, hinv⟩
  · obtain ⟨hreg, hstate⟩ := h8 (h.unique hmsg ▸ htype)
    rw [hreg, if_pos rfl] at hinv
    simp only [RegistrarInv, hstate] at hinv
    exact ⟨hreg, hinv⟩
  · obtain ⟨hreg, hstate⟩ := h5 (h.unique hmsg ▸ htype)
    rw [hreg, if_neg (by simp)] at hinv
    simp only [EnrolleeInv, hstate] at hinv
    exact ⟨hreg, hinv⟩
  · obtain ⟨hreg, hstate⟩ := h7 (h.unique hmsg ▸ htype)
    rw [hreg, if_neg (by simp)] at hinv
    simp only [EnrolleeInv, hstate] at hinv
    exact ⟨hreg, hinv⟩

def registrarCalls : ℕ → WpsData → WpsData → List Step
  | 0, _, _ => []
  | n + 1, e, r =>
    match getMsg lengthCrypto enrolleeEnv {} e with
    | (e, some (op, msg), _) =>
      let r := getMsg lengthCrypto registrarEnv { ap := true }
        (processMsg lengthCrypto registrarEnv { ap := true } r op msg).1
      ⟨registrarEnv, { ap := true }, .processMsg op msg⟩ ::
        match r with
        | (r, some (op, msg), _) =>
          ⟨registrarEnv, { ap := true }, .getMsg⟩ ::
            registrarCalls n (processMsg lengthCrypto enrolleeEnv {} e op msg).1 r
        | _ => []
    | _ => []

def afterM5 : Session :=
  ((registrarCalls 3 (init {} { registrar := false, pin := some [49, 50, 51, 52] })
    (init { ap := true } { registrar := true })).take 5).foldl (exec lengthCrypto)
      ⟨init { ap := true } { registrar := true }, []⟩

-- It sends M6 next, after the proof of the first half.
set_option maxRecDepth 100000 in
theorem secrets_told_against_proof_m6 :
    ∃ msg, (getMsg lengthCrypto registrarEnv { ap := true } afterM5.data).2.1 = some (.msg, msg) ∧
      IsMsg m6 msg ∧ Proved lengthCrypto afterM5 true (FirstProved lengthCrypto) := by
  have hm6 : (getMsg lengthCrypto registrarEnv { ap := true } afterM5.data).2.1.any (fun r =>
      r.1 = .msg && (encode [buildVersion, buildMsgType m6]).isPrefixOf r.2) = true := by
    rfl
  obtain ⟨⟨op, msg⟩, hmsg, htype⟩ := (Option.any_eq_true _ _).mp hm6
  rw [Bool.and_eq_true, List.isPrefixOf_iff_prefix, decide_eq_true_eq] at htype
  have hrun : Runs (exec lengthCrypto) (fun _ _ => True) ⟨init { ap := true } { registrar := true }, []⟩
      afterM5 := Runs.of_free _ (fun _ _ => trivial)
  have hproved := secrets_told_against_proof lengthCrypto { ap := true } { registrar := true } afterM5 hrun
    registrarEnv { ap := true } op msg hmsg
  exact ⟨msg, htype.1 ▸ hmsg, htype.2, hproved.1 htype.2⟩

end WpaSupplicant.Wps
