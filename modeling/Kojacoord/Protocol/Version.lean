import Mathlib.Data.List.MinMax

namespace Kojacoord

inductive ProtocolVersion where
  | v1_6_1 | v1_6_2 | v1_6_4
  | v1_7_2 | v1_7_6 | v1_7_10
  | v1_8
  | v1_9 | v1_9_1 | v1_9_2 | v1_9_4
  | v1_10
  | v1_11 | v1_11_1
  | v1_12 | v1_12_1 | v1_12_2
  | v1_13 | v1_13_1 | v1_13_2
  | v1_14 | v1_14_1 | v1_14_2 | v1_14_3 | v1_14_4
  | v1_15 | v1_15_1 | v1_15_2
  | v1_16 | v1_16_1 | v1_16_2 | v1_16_3 | v1_16_4 | v1_16_5
  | v1_17 | v1_17_1
  | v1_18 | v1_18_2
  | v1_19 | v1_19_1 | v1_19_3 | v1_19_4
  | v1_20 | v1_20_2 | v1_20_4 | v1_20_6
  | v1_21 | v1_21_2 | v1_21_4 | v1_21_5 | v1_21_6 | v1_21_8 | v1_21_9 | v1_21_11
  | v26_1 | v26_2
  | unknown (id : UInt32)
deriving DecidableEq

inductive Epoch where
  | preNetty
  | v1_7
  | v1_8
  | v1_9To1_12
  | v1_13To1_15
  | v1_16
  | v1_17To1_18
  | v1_19
  | v1_20
  | v1_21Plus
  | unknown
deriving DecidableEq

inductive CanonicalVersion where
  | v1_6_4 | v1_7_10 | v1_8 | v1_12_2 | v1_15_2 | v1_16_5 | v1_18_2 | v1_19_4 | v1_20_4 | v1_21
  | v26
deriving DecidableEq

namespace ProtocolVersion

def fromId : UInt32 → ProtocolVersion
  | 73 => v1_6_1
  | 74 => v1_6_2
  | 78 => v1_6_4
  | 4 => v1_7_2
  | 5 => v1_7_10
  | 47 => v1_8
  | 107 => v1_9
  | 108 => v1_9_1
  | 109 => v1_9_2
  | 110 => v1_9_4
  | 210 => v1_10
  | 315 => v1_11
  | 316 => v1_11_1
  | 335 => v1_12
  | 338 => v1_12_1
  | 340 => v1_12_2
  | 393 => v1_13
  | 401 => v1_13_1
  | 404 => v1_13_2
  | 477 => v1_14
  | 480 => v1_14_1
  | 485 => v1_14_2
  | 490 => v1_14_3
  | 498 => v1_14_4
  | 573 => v1_15
  | 575 => v1_15_1
  | 578 => v1_15_2
  | 735 => v1_16
  | 736 => v1_16_1
  | 751 => v1_16_2
  | 753 => v1_16_3
  | 754 => v1_16_5
  | 755 => v1_17
  | 756 => v1_17_1
  | 757 => v1_18
  | 758 => v1_18_2
  | 759 => v1_19
  | 760 => v1_19_1
  | 761 => v1_19_3
  | 762 => v1_19_4
  | 763 => v1_20
  | 764 => v1_20_2
  | 765 => v1_20_4
  | 766 => v1_20_6
  | 767 => v1_21
  | 768 => v1_21_2
  | 769 => v1_21_4
  | 770 => v1_21_5
  | 771 => v1_21_6
  | 772 => v1_21_8
  | 773 => v1_21_9
  | 774 => v1_21_11
  | 775 => v26_1
  | 776 => v26_2
  | id => unknown id

def id : ProtocolVersion → UInt32
  | v1_6_1 => 73
  | v1_6_2 => 74
  | v1_6_4 => 78
  | v1_7_2 => 4
  | v1_7_6 => 5
  | v1_7_10 => 5
  | v1_8 => 47
  | v1_9 => 107
  | v1_9_1 => 108
  | v1_9_2 => 109
  | v1_9_4 => 110
  | v1_10 => 210
  | v1_11 => 315
  | v1_11_1 => 316
  | v1_12 => 335
  | v1_12_1 => 338
  | v1_12_2 => 340
  | v1_13 => 393
  | v1_13_1 => 401
  | v1_13_2 => 404
  | v1_14 => 477
  | v1_14_1 => 480
  | v1_14_2 => 485
  | v1_14_3 => 490
  | v1_14_4 => 498
  | v1_15 => 573
  | v1_15_1 => 575
  | v1_15_2 => 578
  | v1_16 => 735
  | v1_16_1 => 736
  | v1_16_2 => 751
  | v1_16_3 => 753
  | v1_16_4 => 754
  | v1_16_5 => 754
  | v1_17 => 755
  | v1_17_1 => 756
  | v1_18 => 757
  | v1_18_2 => 758
  | v1_19 => 759
  | v1_19_1 => 760
  | v1_19_3 => 761
  | v1_19_4 => 762
  | v1_20 => 763
  | v1_20_2 => 764
  | v1_20_4 => 765
  | v1_20_6 => 766
  | v1_21 => 767
  | v1_21_2 => 768
  | v1_21_4 => 769
  | v1_21_5 => 770
  | v1_21_6 => 771
  | v1_21_8 => 772
  | v1_21_9 => 773
  | v1_21_11 => 774
  | v26_1 => 775
  | v26_2 => 776
  | unknown id => id

def isSupported : ProtocolVersion → Bool
  | unknown _ => false
  | _ => true

def epoch : ProtocolVersion → Epoch
  | v1_6_1 | v1_6_2 | v1_6_4 => .preNetty
  | v1_7_2 | v1_7_6 | v1_7_10 => .v1_7
  | v1_8 => .v1_8
  | v1_9 | v1_9_1 | v1_9_2 | v1_9_4 | v1_10 | v1_11 | v1_11_1 | v1_12 | v1_12_1
  | v1_12_2 => .v1_9To1_12
  | v1_13 | v1_13_1 | v1_13_2 | v1_14 | v1_14_1 | v1_14_2 | v1_14_3 | v1_14_4 | v1_15 | v1_15_1
  | v1_15_2 => .v1_13To1_15
  | v1_16 | v1_16_1 | v1_16_2 | v1_16_3 | v1_16_4 | v1_16_5 => .v1_16
  | v1_17 | v1_17_1 | v1_18 | v1_18_2 => .v1_17To1_18
  | v1_19 | v1_19_1 | v1_19_3 | v1_19_4 => .v1_19
  | v1_20 | v1_20_2 | v1_20_4 | v1_20_6 => .v1_20
  | v1_21 | v1_21_2 | v1_21_4 | v1_21_5 | v1_21_6 | v1_21_8 | v1_21_9 | v1_21_11 | v26_1
  | v26_2 => .v1_21Plus
  | unknown _ => .unknown

/-- `ServerboundLoginStart` carries a UUID: optional from 1.19.3 on, mandatory from 1.20.2 on. -/
def hasLoginStartUuid (v : ProtocolVersion) : Bool := 761 ≤ v.id

def hasMandatoryLoginStartUuid (v : ProtocolVersion) : Bool := 764 ≤ v.id

def hasConfigurationPhase (v : ProtocolVersion) : Bool := 764 ≤ v.id

def canonicalTypedPacketVersion : ProtocolVersion → CanonicalVersion
  | v26_1 | v26_2 => .v26
  | v =>
    match v.epoch with
    | .preNetty => .v1_6_4
    | .v1_7 => .v1_7_10
    | .v1_8 => .v1_8
    | .v1_9To1_12 => .v1_12_2
    | .v1_13To1_15 => .v1_15_2
    | .v1_16 => .v1_16_5
    | .v1_17To1_18 => .v1_18_2
    | .v1_19 => .v1_19_4
    | .v1_20 => .v1_20_4
    | .v1_21Plus => .v1_21
    | .unknown => .v1_12_2

theorem id_fromId (protocol : UInt32) : (fromId protocol).id = protocol := by
  unfold fromId
  split <;> rfl

theorem canonical_eq_v1_6_4_iff (v : ProtocolVersion) :
    v.canonicalTypedPacketVersion = .v1_6_4 ↔ v.epoch = .preNetty := by
  cases v <;> simp [canonicalTypedPacketVersion, epoch]

theorem id_le_of_preNetty {v : ProtocolVersion} (h : v.epoch = .preNetty) : v.id ≤ 78 := by
  cases v <;> first | decide | cases h

end ProtocolVersion

def supportedProtocols : List UInt32 :=
  [4, 5, 47, 73, 74, 78, 107, 108, 109, 110, 210, 315, 316, 335, 338, 340, 393, 401, 404, 477,
    480, 485, 490, 498, 573, 575, 578, 735, 736, 751, 753, 754, 755, 756, 757, 758, 759, 760,
    761, 762, 763, 764, 765, 766, 767, 768, 769, 770, 771, 772, 773, 774, 775, 776]

def nearest (protocol : UInt32) : ProtocolVersion :=
  let exact := ProtocolVersion.fromId protocol
  if exact.isSupported then exact
  else
    let distance (s : UInt32) := (s.toNat - protocol.toNat : Int).natAbs
    .fromId ((supportedProtocols.argmin distance).getD 340)

def isPreNettyProto (protocol : UInt32) : Bool := (nearest protocol).epoch = .preNetty

theorem le_of_isPreNettyProto (h : isPreNettyProto protocol = true) : protocol.toNat ≤ 92 := by
  have hepo : (nearest protocol).epoch = .preNetty := of_decide_eq_true h
  have hid := ProtocolVersion.id_le_of_preNetty hepo
  rw [nearest] at hid
  split at hid
  · rw [ProtocolVersion.id_fromId] at hid
    exact Nat.le_trans hid (by decide)
  · rw [ProtocolVersion.id_fromId] at hid
    let distance (s : UInt32) := (s.toNat - protocol.toNat : Int).natAbs
    cases hbest : supportedProtocols.argmin distance with
    | none =>
      rw [hbest] at hid
      cases (by decide : ¬(340 : UInt32) ≤ 78) hid
    | some best =>
      rw [hbest] at hid
      have hclo : distance best ≤ distance 107 :=
        List.le_of_mem_argmin (by decide : (107 : UInt32) ∈ supportedProtocols) hbest
      have hsm : best.toNat ≤ 78 := hid
      change (best.toNat - protocol.toNat : Int).natAbs ≤ (107 - protocol.toNat : Int).natAbs
        at hclo
      omega

theorem lt_of_isPreNettyProto (h : isPreNettyProto protocol = true) : protocol < 765 := by
  have hle := le_of_isPreNettyProto h
  change protocol.toNat < 765
  omega

theorem isPreNettyProto_iff (protocol : UInt32) :
    isPreNettyProto protocol = true ↔ 61 ≤ protocol.toNat ∧ protocol.toNat ≤ 92 := by
  have hsm : ∀ n : Fin 93, isPreNettyProto (.ofNat n) = true ↔ 61 ≤ n.val ∧ n.val ≤ 92 := by
    decide +kernel
  by_cases hlt : protocol.toNat < 93
  · have hn := hsm ⟨protocol.toNat, hlt⟩
    rwa [UInt32.ofNat_toNat] at hn
  · refine iff_of_false ?_ fun h => by omega
    intro h
    have hle := le_of_isPreNettyProto h
    omega

end Kojacoord
