import WpaSupplicant.Supplicant.Run

namespace WpaSupplicant.Supplicant

open Lib.Octets KeyData

-- PeerKey is not used, and the IE of the association request is an element: `wpa_sm_set_assoc_wpa_ie`
-- takes an empty one for none, and an element has at most 255 octets behind its header.
structure Plain (conf : Config) : Prop where
  peerkey : conf.peerkeyEnabled = false
  ie : ∀ ie, conf.assocWpaIe = some ie → ie ≠ [] ∧ ie.length ≤ 257

def Event.Plain : Event → Prop
  | .configure conf => Supplicant.Plain conf
  | _ => True

-- KCK, KEK and TK1 come from a derivation of the run.
def Derived (cr : Crypto) (tr : List Record) (ptk : Ptk) : Prop :=
  ∃ r ∈ tr, ∃ input, .derivePtk input ∈ r.out ∧ ptk.keys = cr.ptkKeys input

-- The frame can not be taken for message 4/4: it is a request, it carries key data, or it belongs to
-- the group handshake.
def NoMsg4 (g : EapolKey) : Prop :=
  g.keyInfo.request = true ∨ g.keyDataLength ≠ 0 ∨ g.keyInfo.keyType = false

-- In the step, the Supplicant answers a frame with message 4/4, under the PTK it has from then on.
def Answers (r : Record) (kck : BitVec 128) (g : EapolKey) : Prop :=
  ∃ src data f, r.event = .rxEapol src data ∧ received data = some f ∧
    g.replayCounter = f.replayCounter ∧ r.sm'.ptkSet = true ∧ kck = r.sm'.ptk.kck

-- Where the keys of the Supplicant come from
structure Origins (cr : Crypto) (tr : List Record) (sm : Sm) : Prop where
  plain : Plain sm.conf
  peerkey : sm.peerkey = []
  ptk : sm.ptkSet = true → Derived cr tr sm.ptk
  tptk : sm.tptkSet = true → Derived cr tr sm.tptk

section Steps

variable {cr : Crypto} {env : Env} {tr : List Record} {sm sm' : Sm} {r : Record}

theorem Derived.later {ptk : Ptk} (h : Derived cr tr ptk) (r : Record) : Derived cr (r :: tr) ptk := by
  obtain ⟨q, hq, hrest⟩ := h
  exact ⟨q, List.mem_cons_of_mem _ hq, hrest⟩

theorem Plain.kept (h : Plain sm.conf) (hkept : KeptPtk sm sm') : Plain sm'.conf := by
  rw [hkept.conf]
  exact ⟨h.peerkey, h.ie⟩

theorem Origins.drop (h : Origins cr tr sm) (r : Record) (hplain : Plain sm'.conf)
    (hpeer : sm'.peerkey = sm.peerkey)
    (hptk : sm'.ptkSet = true → sm.ptkSet = true ∧ sm'.ptk = sm.ptk)
    (htptk : sm'.tptkSet = true → sm.tptkSet = true ∧ sm'.tptk = sm.tptk) :
    Origins cr (r :: tr) sm' := by
  refine ⟨hplain, hpeer.trans h.peerkey, fun hset => ?_, fun hset => ?_⟩
  · obtain ⟨hold, heq⟩ := hptk hset
    rw [heq]
    exact (h.ptk hold).later r
  · obtain ⟨hold, heq⟩ := htptk hset
    rw [heq]
    exact (h.tptk hold).later r

theorem Origins.same (h : Origins cr tr sm) (r : Record) (hplain : Plain sm'.conf)
    (hpeer : sm'.peerkey = sm.peerkey) (hptkSet : sm'.ptkSet = sm.ptkSet) (hptk : sm'.ptk = sm.ptk)
    (htptkSet : sm'.tptkSet = sm.tptkSet) (htptk : sm'.tptk = sm.tptk) : Origins cr (r :: tr) sm' :=
  h.drop r hplain hpeer (fun hset => ⟨hptkSet.symm.trans hset, hptk⟩)
    fun hset => ⟨htptkSet.symm.trans hset, htptk⟩

theorem Origins.kept (h : Origins cr tr sm) (r : Record) (hkept : Kept sm sm') :
    Origins cr (r :: tr) sm' :=
  h.same r (h.plain.kept hkept.toKeptPtk) hkept.peerkey hkept.ptkSet hkept.ptk hkept.tptkSet
    hkept.tptk

variable {f : EapolKey} {c : Ctx} {kck : BitVec 128}

-- A frame without a MIC may make a temporary PTK.
theorem Origins.unverified {e : Event} (h : Origins cr tr sm) (hun : Unverified cr f ⟨sm, 0, []⟩ c) :
    Origins cr (⟨sm, e, c.out, c.sm⟩ :: tr) c.sm := by
  refine ⟨h.plain.kept hun.kept, (hun.peerkey h.plain.peerkey).trans h.peerkey, fun hset => ?_,
    fun hset => ?_⟩
  · rw [hun.kept.ptk]
    exact (h.ptk (hun.kept.ptkSet.symm.trans hset)).later _
  · rcases hun.tptk with ⟨heq, hsame⟩ | ⟨sm1, -, -, hmem, hkeys⟩
    · rw [heq]
      exact (h.tptk (hsame.symm.trans hset)).later _
    · exact ⟨_, List.mem_cons_self, _, hmem, hkeys⟩

-- A verified frame leaves the PTK, or puts the temporary one in its place.
theorem Origins.handled {e : Event} (h : Origins cr tr sm) (hha : Handled cr f ⟨sm, 0, []⟩ c) :
    Origins cr (⟨sm, e, c.out, c.sm⟩ :: tr) c.sm := by
  obtain ⟨c1, hver, hkept, hpeer, -⟩ := hha.verified
  have hplain : Plain c1.sm.conf := by
    rw [hver.conf]
    exact h.plain
  refine ⟨hplain.kept hkept.toKeptPtk, (hpeer h.plain.peerkey).trans h.peerkey, fun _ => ?_,
    fun hset => ?_⟩
  · rw [hkept.ptk]
    rcases hver.ptk with ⟨heq, hold⟩ | ⟨heq, hold⟩
    · rw [heq]
      exact (h.ptk hold).later _
    · rw [heq]
      exact (h.tptk hold).later _
  · rw [hkept.tptk, hver.tptk]
    exact (h.tptk (hver.tptkSet (hkept.tptkSet.symm.trans hset))).later _

theorem groupMsg2_keyType (sm : Sm) (f : EapolKey) :
    (groupMsg2 sm f f.keyInfo.ver).keyInfo.keyType = false := by
  simp [groupMsg2, newFrame, KeyInfo.keyType, KeyInfo.keyIndexMask, KeyInfo.ver, KeyInfo.typeMask,
    KeyInfo.micBit, KeyInfo.secureBit]

theorem unverified_micOver {g : EapolKey} (hplain : Plain sm.conf) (hun : Unverified cr f ⟨sm, 0, []⟩ c)
    (hmic : .micOver kck g ∈ c.out) : NoMsg4 g := by
  obtain ⟨l, hl, hall⟩ := hun.emitted
  rw [hl, List.nil_append] at hmic
  rcases hall _ hmic with ⟨kek, heq⟩ | ⟨ie, hie, hlen⟩ | ⟨hon, -⟩
  · simp at heq
  · -- message 2/4
    obtain ⟨hne, hle⟩ := hplain.ie ie hie
    have hpos := List.length_pos_iff.mpr hne
    refine .inr (.inl fun hzero => ?_)
    have hnat : ie.length % 2 ^ 16 = 0 := by
      simpa using congrArg BitVec.toNat (hlen.symm.trans hzero)
    omega
  · simp [hplain.peerkey] at hon

theorem handled_micOver {src : Addr} {data : Octets} {g : EapolKey} (hplain : Plain sm.conf)
    (hf : received data = some f) (hha : Handled cr f ⟨sm, 0, []⟩ c) (hmic : .micOver kck g ∈ c.out) :
    NoMsg4 g ∨ Answers ⟨sm, .rxEapol src data, c.out, c.sm⟩ kck g := by
  obtain ⟨c1, hver, hkept, -, l, hl, hall⟩ := hha.verified
  rw [hl, hver.out, List.nil_append, List.singleton_append, List.mem_cons] at hmic
  have hmem : .micOver kck g ∈ l := hmic.resolve_left (by simp)
  rcases hall _ hmem with heq | ⟨g1, reply, hopen, hreply, hkck, mic, rfl⟩ | ⟨hon, -⟩
  · simp at heq
  · rcases hreply with rfl | rfl
    · refine .inr ⟨src, data, f, rfl, hf, hopen.replayCounter, hkept.ptkSet.trans hver.ptkSet, ?_⟩
      rw [hkck, hkept.ptk]
    · exact .inl (.inr (.inr (groupMsg2_keyType c1.sm g1)))
  · rw [hver.conf, hplain.peerkey] at hon
    simp at hon

theorem requestOut_micOver {a : Ctx} {g : EapolKey} (h : Does Kept (RequestOut a.sm) a c)
    (hout : a.out = []) (hmic : .micOver kck g ∈ c.out) : NoMsg4 g := by
  obtain ⟨l, hl, hall⟩ := h.emitted
  rw [hl, hout, List.nil_append] at hmic
  exact .inl (hall _ hmic).2

-- One step: the origins of the keys stay known, and only message 4/4 looks like message 4/4.
theorem step_origins {e : Event} {out : List Out} (h : Origins cr tr sm) (he : e.Plain)
    (hs : Step cr sm e out sm') :
    Origins cr (⟨sm, e, out, sm'⟩ :: tr) sm' ∧
      ∀ kck g, .micOver kck g ∈ out → NoMsg4 g ∨ Answers ⟨sm, e, out, sm'⟩ kck g := by
  obtain ⟨env, tick, hexec⟩ := hs
  cases e with
  | rxEapol src data =>
    have hc := Option.some.inj hexec
    have hpeer : rxPeer sm src = none := by simp [rxPeer, h.peerkey]
    rcases wpaSmRxEapol_of_none cr env src data ⟨sm, 0, []⟩ hpeer with
      ⟨hsm, hout⟩ | ⟨f, hf, -, ⟨-, hun⟩ | ⟨-, hha⟩⟩
    · rw [hc] at hsm hout
      obtain rfl : sm' = sm := hsm
      obtain rfl : out = [] := hout
      exact ⟨h.kept _ (.refl _), by simp⟩
    · rw [hc] at hun
      exact ⟨h.unverified hun, fun kck g hmic => .inl (unverified_micOver h.plain hun hmic)⟩
    · rw [hc] at hha
      exact ⟨h.handled hha, fun kck g hmic => handled_micOver h.plain hf hha hmic⟩
  | keyRequest error pairwise =>
    have hdoes := wpaSmKeyRequest_does cr env error pairwise ⟨sm, 0, []⟩
    rw [Option.some.inj hexec] at hdoes
    exact ⟨h.kept _ hdoes.rel, fun kck g hmic => .inl (requestOut_micOver hdoes rfl hmic)⟩
  | rekeyPtk =>
    simp only [exec] at hexec
    split at hexec
    · have hdoes := wpaSmKeyRequest_does cr env false true ⟨{ sm with rekeyTimer := false }, 0, []⟩
      rw [Option.some.inj hexec] at hdoes
      have hkept : Kept sm { sm with rekeyTimer := false } :=
        ⟨⟨⟨rfl, rfl, rfl, rfl, rfl⟩, rfl, rfl, rfl, rfl, rfl⟩, rfl⟩
      exact ⟨h.kept _ (hkept.trans hdoes.rel),
        fun kck g hmic => .inl (requestOut_micOver hdoes rfl hmic)⟩
    · simp at hexec
  | stkstart peer =>
    simp only [exec, wpaSmStkstart, h.plain.peerkey] at hexec
    simp only [Bool.not_false, true_or, or_true, if_true, Option.some.injEq, Ctx.mk.injEq] at hexec
    obtain ⟨rfl, -, rfl⟩ := hexec
    exact ⟨h.kept _ (.refl _), by simp⟩
  | configure conf =>
    simp only [exec, Option.some.injEq, Ctx.mk.injEq] at hexec
    obtain ⟨rfl, -, rfl⟩ := hexec
    exact ⟨h.same _ he rfl rfl rfl rfl rfl, by simp⟩
  | setPmkFromPmksa =>
    simp only [exec, Option.some.injEq, Ctx.mk.injEq] at hexec
    obtain ⟨rfl, -, rfl⟩ := hexec
    refine ⟨?_, by simp⟩
    rw [wpaSmSetPmkFromPmksa]
    split
    · exact h.same _ h.plain rfl rfl rfl rfl rfl
    · exact h.same _ h.plain rfl rfl rfl rfl rfl
  | updateReplayCtr ctr | setPmk pmk | setCurPmksa entry =>
    simp only [exec, Option.some.injEq, Ctx.mk.injEq] at hexec
    obtain ⟨rfl, -, rfl⟩ := hexec
    exact ⟨h.same _ h.plain rfl rfl rfl rfl rfl, by simp⟩
  | notifyAssoc bssid =>
    simp only [exec, Option.some.injEq, Ctx.mk.injEq] at hexec
    obtain ⟨rfl, -, rfl⟩ := hexec
    exact ⟨h.drop _ h.plain rfl (fun hset => by simp [wpaSmNotifyAssoc] at hset)
      fun hset => by simp [wpaSmNotifyAssoc] at hset, by simp⟩
  | dropSa =>
    simp only [exec, Option.some.injEq, Ctx.mk.injEq] at hexec
    obtain ⟨rfl, -, rfl⟩ := hexec
    exact ⟨h.drop _ h.plain rfl (fun hset => by simp [wpaSmDropSa] at hset)
      fun hset => by simp [wpaSmDropSa] at hset, by simp⟩

end Steps

end WpaSupplicant.Supplicant
