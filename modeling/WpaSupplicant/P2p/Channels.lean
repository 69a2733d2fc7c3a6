import WpaSupplicant.Common

namespace WpaSupplicant.P2p

-- A country string; a third octet of 4 says that Table J-4 is used.
structure Country where
  c0 : UInt8
  c1 : UInt8
  c2 : UInt8
  deriving DecidableEq, Repr

-- `struct p2p_reg_class`
structure RegClass where
  regClass : UInt8
  channel : List UInt8
  deriving DecidableEq, Repr

-- `struct p2p_channels`
abbrev Channels := List RegClass

-- `P2P_MAX_REG_CLASSES` and `P2P_MAX_REG_CLASS_CHANNELS`
def maxRegClasses : ℕ := 10
def maxRegClassChannels : ℕ := 20

def freqIn (lo hi base channel : ℕ) : ℤ :=
  if channel < lo ∨ hi < channel then -1 else base + 5 * channel

-- `p2p_channel_to_freq_j4`
def channelToFreqJ4 (regClass channel : ℕ) : ℤ :=
  if regClass = 81 ∨ regClass = 83 ∨ regClass = 84 then freqIn 1 13 2407 channel
  else if regClass = 82 then freqIn 14 14 2414 channel
  else if regClass ∈ [115, 118, 116, 117, 119, 120] then freqIn 36 64 5000 channel
  else if regClass ∈ [124, 125, 126, 127] then freqIn 149 161 5000 channel
  else -1

-- `p2p_channel_to_freq`
def channelToFreq (country : Country) (regClass channel : UInt8) : ℤ :=
  let regClass := regClass.toNat
  let channel := channel.toNat
  if country.c2 = 0x04 then channelToFreqJ4 regClass channel
  else if regClass = 1 then freqIn 36 48 5000 channel
  else if regClass = 3 ∨ regClass = 5 then freqIn 149 161 5000 channel
  else if regClass = 4 ∨ regClass = 12 ∨ regClass = 30 then freqIn 1 13 2407 channel
  else if regClass = 31 then freqIn 14 14 2414 channel
  else -1

-- `p2p_freq_to_channel`
def freqToChannel (freq : ℤ) : Option (UInt8 × UInt8) :=
  if 2412 ≤ freq ∧ freq ≤ 2472 then some (81, UInt8.ofNat ((freq.toNat - 2407) / 5))
  else if freq = 2484 then some (82, 14)
  else if 5180 ≤ freq ∧ freq ≤ 5240 then some (115, UInt8.ofNat ((freq.toNat - 5000) / 5))
  else if 5745 ≤ freq ∧ freq ≤ 5805 then some (124, UInt8.ofNat ((freq.toNat - 5000) / 5))
  else none

-- `p2p_reg_class_intersect`
def regClassIntersect (a b : RegClass) : RegClass :=
  { regClass := a.regClass
    channel := (a.channel.flatMap fun c => b.channel.filter (c = ·)).take maxRegClassChannels }

-- `p2p_channels_intersect`
def channelsIntersect (a b : Channels) : Channels :=
  ((a.flatMap fun x => (b.filter (x.regClass = ·.regClass)).map (regClassIntersect x)).filter
    (·.channel ≠ [])).take maxRegClasses

-- `p2p_channels_includes`
def channelsIncludes (channels : Channels) (regClass channel : UInt8) : Bool :=
  channels.any fun c => c.regClass = regClass && c.channel.contains channel

-- The loop of `p2p_peer_channels_check`: the classes that are found, and whether the list is valid.
-- The count is of the entries that are left in the array.
def peerChannelsLoop : ℕ → Octets → Channels × Bool
  | 0, _ => ([], true)
  | n + 1, regClass :: channels :: rest =>
    if rest = [] then ([], true)
    else if rest.length < channels.toNat then ([], false)
    else
      let r := peerChannelsLoop n (rest.drop channels.toNat)
      (⟨regClass, rest.take (min channels.toNat maxRegClassChannels)⟩ :: r.1, r.2)
  | _ + 1, _ => ([], true)

-- The octets that `p2p_buf_add_channel_list` puts after the country string
def channelListOctets (channels : Channels) : Octets :=
  channels.flatMap fun c => c.regClass :: UInt8.ofNat c.channel.length :: c.channel

section

variable {a b channels : Channels} {regClass channel : UInt8}

theorem channelsIncludes_iff :
    channelsIncludes channels regClass channel = true ↔
      ∃ c ∈ channels, c.regClass = regClass ∧ channel ∈ c.channel := by
  simp [channelsIncludes]

theorem channelsIntersect_includes
    (h : channelsIncludes (channelsIntersect a b) regClass channel = true) :
    channelsIncludes a regClass channel = true ∧ channelsIncludes b regClass channel = true := by
  obtain ⟨c, hc, hclass, hchannel⟩ := channelsIncludes_iff.1 h
  have hc := (List.mem_filter.mp (List.mem_of_mem_take hc)).1
  obtain ⟨x, hx, hc⟩ := List.mem_flatMap.mp hc
  obtain ⟨y, hy, rfl⟩ := List.mem_map.mp hc
  obtain ⟨hy, hxy⟩ := List.mem_filter.mp hy
  have hxy : x.regClass = y.regClass := by simpa using hxy
  have hmem := List.mem_of_mem_take hchannel
  obtain ⟨d, hd, hmem⟩ := List.mem_flatMap.mp hmem
  obtain ⟨hmem, heq⟩ := List.mem_filter.mp hmem
  have heq : d = channel := by simpa using heq
  have hclass : x.regClass = regClass := hclass
  refine ⟨channelsIncludes_iff.2 ⟨x, hx, hclass, heq ▸ hd⟩,
    channelsIncludes_iff.2 ⟨y, hy, hxy ▸ hclass, hmem⟩⟩

theorem channelsIntersect_first {c : RegClass} {rest : Channels}
    (h : channelsIntersect a b = c :: rest) :
    channelsIncludes (channelsIntersect a b) c.regClass (c.channel.headD 0) = true := by
  have hc : c ∈ channelsIntersect a b := by simp [h]
  have hne : c.channel ≠ [] := by
    simpa using (List.mem_filter.mp (List.mem_of_mem_take hc)).2
  refine channelsIncludes_iff.2 ⟨c, hc, rfl, ?_⟩
  cases hch : c.channel with
  | nil => exact absurd hch hne
  | cons x l => simp

end

end WpaSupplicant.P2p
