import WpaSupplicant.Arbiter.Info

namespace WpaSupplicant.Arbiter

open Bss Interworking Lib.Checked

def matchingMethods (conf : HomeConf) (realms : List NaiRealm) : List UInt8 :=
  (realms.filter fun r => naiRealmMatch conf r).flatMap fun r => r.eap.map NaiRealmEap.method

-- Behind a text that uses some of the buffer, these are the names of the first methods, and the name of the next one
-- does not fit.
def Listing (used : ℕ) (methods : List UInt8) (names : List Octets) : Prop :=
  ∃ listed cut : List UInt8, methods = listed ++ cut ∧ listed.map methodText = names.map some ∧
    used + names.flatten.length < infoSize ∧
    ∀ m rest, cut = m :: rest →
      ∃ name, methodText m = some name ∧ infoSize ≤ used + names.flatten.length + name.length

def HasString (buf text : Octets) : Prop := ∃ rest, buf = text ++ 0 :: rest

def Named (used : ℕ) (methods : List UInt8) : Prop :=
  ∀ (listed : List UInt8) (m : UInt8) (rest : List UInt8) (names : List Octets), methods = listed ++ m :: rest →
    listed.map methodText = names.map some → used + names.flatten.length < infoSize → methodText m ≠ none

section Lemmas

variable {methods : List UInt8} {rest buf : Octets} {pos : ℕ}

theorem methodLoop_append (ms ms' : List UInt8) : methodLoop (ms ++ ms') pos buf =
    match methodLoop ms pos buf with
    | none => none
    | some ((false, pos), buf) => some ((false, pos), buf)
    | some ((true, pos), buf) => methodLoop ms' pos buf := by
  induction ms generalizing pos buf with
  | nil => rfl
  | cons m ms ih =>
    simp only [List.cons_append, methodLoop]
    split
    · rfl
    · rfl
    · exact ih

theorem authRealmLoop_eq (conf : HomeConf) (realms : List NaiRealm) :
    authRealmLoop conf realms pos buf = (methodLoop (matchingMethods conf realms) pos buf).map fun x => (x.1.2, x.2) := by
  induction realms generalizing pos buf with
  | nil => rfl
  | cons r realms ih =>
    rw [authRealmLoop]
    by_cases hmatch : naiRealmMatch conf r = true
    · have hmethods : matchingMethods conf (r :: realms) =
          r.eap.map NaiRealmEap.method ++ matchingMethods conf realms := by
        simp [matchingMethods, hmatch]
      rw [if_pos hmatch, hmethods, methodLoop_append]
      split
      · simp [*]
      · simp [*]
      · simp [*]
    · have hmethods : matchingMethods conf (r :: realms) = matchingMethods conf realms := by
        simp [matchingMethods, hmatch]
      rw [if_neg hmatch, hmethods, ih]

theorem named_cons {used : ℕ} {m : UInt8} : Named used (m :: methods) ↔ used < infoSize →
    ∃ name, methodText m = some name ∧ (used + name.length < infoSize → Named (used + name.length) methods) := by
  constructor
  · intro h hused
    obtain ⟨name, hname⟩ := Option.ne_none_iff_exists'.mp (h [] m methods [] rfl rfl (by simpa using hused))
    refine ⟨name, hname, fun _ listed m' rest names hmethods hnames hroom => ?_⟩
    refine h (m :: listed) m' rest (name :: names) (by rw [hmethods]; rfl) (by simp [hname, hnames]) ?_
    rw [List.flatten_cons, List.length_append]
    omega
  · rintro h listed m' rest names hmethods hnames hroom
    obtain ⟨name, hname, hrest⟩ := h (by omega)
    cases listed with
    | nil =>
      rw [List.nil_append, List.cons.injEq] at hmethods
      rw [← hmethods.1, hname]
      simp
    | cons m'' listed =>
      rw [List.cons_append, List.cons.injEq] at hmethods
      cases names with
      | nil => simp at hnames
      | cons name' names =>
        rw [List.map_cons, List.map_cons, List.cons.injEq, ← hmethods.1, hname, Option.some.injEq] at hnames
        obtain ⟨rfl, hnames⟩ := hnames
        rw [List.flatten_cons, List.length_append] at hroom
        exact hrest (by omega) listed m' rest names hmethods.2 hnames (by omega)

theorem listing_cons {used : ℕ} {m : UInt8} {name : Octets} {names : List Octets} (hname : methodText m = some name)
    (h : Listing (used + name.length) methods names) : Listing used (m :: methods) (name :: names) := by
  obtain ⟨listed, cut, rfl, hlisted, hroom, hcut⟩ := h
  refine ⟨m :: listed, cut, rfl, by simp [hname, hlisted], ?_, ?_⟩
  · rw [List.flatten_cons, List.length_append]
    omega
  · intro m' rest hrest
    obtain ⟨name', hname', hlong⟩ := hcut m' rest hrest
    refine ⟨name', hname', ?_⟩
    rw [List.flatten_cons, List.length_append]
    omega

theorem append_method (done : Octets) {m : UInt8} {name : Octets} (hname : methodText m = some name)
    (hbuf : done.length + rest.length = infoSize) (hroom : done.length < infoSize) :
    ∃ rest', rest'.length = rest.length ∧ abiterAppendEapMethod done.length (done ++ rest) m = some
      (insertString done.length name.length, done ++ rest') ∧
      (done.length + name.length < infoSize → ∃ rest'', rest' = name ++ rest'') := by
  have hwrite : ((name.take (rest.length - 1)) ++ [(0 : UInt8)]).length ≤ rest.length := by
    simp only [List.length_append, List.length_take, List.length_singleton]
    omega
  refine ⟨name.take (rest.length - 1) ++ [0] ++ rest.drop (name.take (rest.length - 1) ++ [(0 : UInt8)]).length, ?_, ?_, ?_⟩
  · rw [List.length_append, List.length_drop]
    omega
  · rw [abiterAppendEapMethod, hname]
    dsimp only
    rw [osSnprintf, if_neg (by omega), show infoSize - done.length = rest.length by omega, store_append done hwrite]
    simp
  · intro hfits
    rw [List.take_of_length_le (show name.length ≤ rest.length - 1 by omega), List.append_assoc]
    exact ⟨_, rfl⟩

theorem methodLoop_spec (methods : List UInt8) (done : Octets) (hbuf : done.length + rest.length = infoSize) (hroom : done.length < infoSize) :
    (Named done.length methods → ∃ flag names rest', methodLoop methods done.length (done ++ rest) =
      some ((flag, (done ++ names.flatten).length), done ++ names.flatten ++ rest') ∧
      Listing done.length methods names ∧ (done ++ names.flatten).length + rest'.length = infoSize) ∧
    ((methodLoop methods done.length (done ++ rest)).isSome → Named done.length methods) := by
  induction methods generalizing done rest with
  | nil =>
    constructor
    · rintro -
      exact ⟨true, [], rest, by simp [methodLoop], ⟨[], [], rfl, rfl, by simpa using hroom, by simp⟩, by simpa using hbuf⟩
    · rintro - listed m rest names hmethods
      simp at hmethods
  | cons m methods ih =>
    rw [named_cons]
    cases hname : methodText m with
    | none =>
      refine ⟨fun hnamed => ?_, fun hsome => ?_⟩
      · obtain ⟨name, hsome, -⟩ := hnamed hroom
        cases hsome
      · simp [methodLoop, abiterAppendEapMethod, hname] at hsome
    | some name =>
      obtain ⟨rest', hlen, happend, hfits⟩ := append_method done hname hbuf hroom
      by_cases hfit : done.length + name.length < infoSize
      · obtain ⟨rest'', rfl⟩ := hfits hfit
        have hgoOn : insertString done.length name.length = (true, (done ++ name).length) := by
          rw [insertString, if_neg (by omega), List.length_append]
        rw [List.length_append] at hlen
        have hbuf' : (done ++ name).length + rest''.length = infoSize := by
          rw [List.length_append]
          omega
        obtain ⟨hlisted, hnamed⟩ := ih (done ++ name) hbuf' (by rw [List.length_append]; omega)
        rw [methodLoop, happend, hgoOn, ← List.append_assoc]
        rw [List.length_append] at hlisted hnamed
        dsimp only
        rw [List.length_append]
        constructor
        · intro h
          obtain ⟨name', hname', hrest⟩ := h hroom
          cases hname'
          obtain ⟨flag, names, rest₃, hloop, hlisting, hlength⟩ := hlisted (hrest hfit)
          refine ⟨flag, name :: names, rest₃, ?_, listing_cons hname hlisting, ?_⟩
          · simpa using hloop
          · simpa using hlength
        · intro hsome _
          exact ⟨name, rfl, fun _ => hnamed hsome⟩
      · have hstop : insertString done.length name.length = (false, done.length) := by
          rw [insertString, if_pos (by omega)]
        rw [methodLoop, happend, hstop]
        constructor
        · rintro -
          refine ⟨false, [], rest', by simp, ⟨[], m :: methods, rfl, rfl, by simpa using hroom, ?_⟩, ?_⟩
          · intro m' tail hcut
            cases hcut
            exact ⟨name, hname, by simpa using hfit⟩
          · rw [List.flatten_nil, List.append_nil, hlen]
            exact hbuf
        · rintro - -
          exact ⟨name, rfl, fun hfit' => absurd hfit' hfit⟩

theorem endOfList_spec {text : Octets} (hbuf : text.length + rest.length = infoSize) (hroom : text.length < infoSize) :
    ∃ out, endOfList text.length (text ++ rest) = some out ∧ out.length = infoSize ∧
      HasString out (if text = [] then ascii "No Matched Realm" else text) := by
  by_cases hempty : text = []
  · subst hempty
    rw [List.length_nil, Nat.zero_add] at hbuf
    have htext : (ascii "No Matched Realm").length = 16 := by decide
    have hprint := osSnprintf_append [] (by rw [htext, hbuf]; decide : (ascii "No Matched Realm").length < rest.length)
      (by decide : (ascii "No Matched Realm").length < infoSize)
    have hpos : (insertString 0 (ascii "No Matched Realm").length).2 = (ascii "No Matched Realm").length := by decide
    have hone : [(0 : UInt8)].length ≤ (0 :: rest.drop ((ascii "No Matched Realm").length + 1)).length := by simp
    have hstore := store_append (ascii "No Matched Realm") hone
    rw [List.length_nil, List.nil_append] at hprint
    have hout : endOfList ([] : Octets).length ([] ++ rest) = some (ascii "No Matched Realm" ++ [0] ++
        (0 :: rest.drop ((ascii "No Matched Realm").length + 1)).drop [(0 : UInt8)].length) := by
      rw [endOfList, if_pos List.length_nil, List.nil_append]
      dsimp only
      rw [hprint]
      dsimp only
      rw [hpos, List.nil_append, hstore]
    refine ⟨_, hout, ?_, ?_⟩
    · simp only [infoSize] at hbuf ⊢
      simp only [List.length_append, List.length_cons, List.length_drop, List.length_nil, htext]
      omega
    · rw [if_pos rfl, List.append_assoc]
      exact ⟨_, rfl⟩
  · have hwrite : [(0 : UInt8)].length ≤ rest.length := by
      rw [List.length_singleton]
      omega
    have hout : endOfList text.length (text ++ rest) = some (text ++ [0] ++ rest.drop [(0 : UInt8)].length) := by
      rw [endOfList, if_neg (by simpa using hempty), store_append text hwrite]
    refine ⟨_, hout, ?_, ?_⟩
    · simp only [List.length_append, List.length_drop, List.length_singleton] at hwrite ⊢
      omega
    · rw [if_neg hempty, List.append_assoc]
      exact ⟨_, rfl⟩

end Lemmas

def Lists (conf : HomeConf) (anqp out : Octets) : Prop :=
  ∃ realms names, naiRealmParse anqp = some realms ∧ Listing 0 (matchingMethods conf realms) names ∧
    HasString out (if names.flatten = [] then ascii "No Matched Realm" else names.flatten)

theorem auth_methods_listed (conf : HomeConf) (bss : Entry) (anqp buf : Octets) (hanqp : bss.anqp.naiRealm = some anqp)
    (hbuf : buf.length = infoSize) :
    (∃ out, getAuthMethod conf bss buf = some out ∧ out.length = infoSize ∧ Lists conf anqp out) ↔
      ∃ realms, naiRealmParse anqp = some realms ∧ Named 0 (matchingMethods conf realms) := by
  cases hparse : naiRealmParse anqp with
  | none =>
    have hnone : getAuthMethod conf bss buf = none := by simp [getAuthMethod, hanqp, realmCount, hparse]
    simp [hnone]
  | some realms =>
    have hsum : ([] : Octets).length + buf.length = infoSize := by simpa using hbuf
    obtain ⟨hlisted, hnamed⟩ := methodLoop_spec (matchingMethods conf realms) [] hsum (by decide)
    simp only [List.length_nil, List.nil_append] at hlisted hnamed
    have hget : getAuthMethod conf bss buf =
        (methodLoop (matchingMethods conf realms) 0 buf).bind fun x => endOfList x.1.2 x.2 := by
      simp only [getAuthMethod, hanqp, realmCount, hparse, Option.map_some, Option.getD_some, List.take_length,
        authRealmLoop_eq]
      cases methodLoop (matchingMethods conf realms) 0 buf <;> rfl
    constructor
    · rintro ⟨out, hout, -⟩
      refine ⟨realms, rfl, hnamed ?_⟩
      rw [hget] at hout
      obtain ⟨x, hx, -⟩ := Option.bind_eq_some_iff.mp hout
      rw [hx]
      rfl
    · rintro ⟨_, hrealms, h⟩
      cases hrealms
      obtain ⟨flag, names, rest, hloop, hlisting, hlength⟩ := hlisted h
      obtain ⟨out, hout, hsize, hstring⟩ := endOfList_spec hlength (by
        obtain ⟨-, -, -, -, hroom, -⟩ := hlisting
        simpa using hroom)
      refine ⟨out, ?_, hsize, realms, names, hparse, hlisting, hstring⟩
      rw [hget, hloop]
      exact hout

def realmBss (anqp : Octets) : Entry := { serial := 0, lastUpdateIdx := 0, anqp := { naiRealm := some anqp } }

def realmConf : HomeConf := { registered := fun _ => true, homeRealm := some ⟨[0x62], by decide⟩ }

theorem ttls_listed : (∃ out, getAuthMethod realmConf (realmBss [1, 0, 7, 0, 0, 1, 0x62, 1, 2, 21, 0])
      (List.replicate infoSize 0) = some out ∧ out.length = infoSize ∧
      Lists realmConf [1, 0, 7, 0, 0, 1, 0x62, 1, 2, 21, 0] out) ↔
    ∃ realms, naiRealmParse [1, 0, 7, 0, 0, 1, 0x62, 1, 2, 21, 0] = some realms ∧
      Named 0 (matchingMethods realmConf realms) :=
  auth_methods_listed realmConf (realmBss [1, 0, 7, 0, 0, 1, 0x62, 1, 2, 21, 0]) [1, 0, 7, 0, 0, 1, 0x62, 1, 2, 21, 0]
    (List.replicate infoSize 0) rfl List.length_replicate

-- For an element that is too short, the count is never set.
theorem malformed_count_unset : getAuthMethod realmConf (realmBss [1, 0]) (List.replicate infoSize 0) = none := rfl

end WpaSupplicant.Arbiter
