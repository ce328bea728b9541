import RelayLedger.Call
import RelayLedger.Event
import RelayLedger.Layout.Exact

/-!
The layouts of the ledger's own types are exact, so no two values share their bytes and no
bytes but those that are written for a value are read as one. A commitment pledges all of its
packet that way.
-/
namespace RelayLedger

open Layout

namespace Config

theorem exact_channelIds (cfg : Config) : cfg.channelIds.Exact :=
  exact_bytes cfg.channelIdLimit.toNat_lt

theorem exact_chainIds (cfg : Config) : cfg.chainIds.Exact :=
  exact_bytes cfg.chainIdLimit.toNat_lt

theorem exact_agentIds (cfg : Config) : cfg.agentIds.Exact :=
  exact_bytes cfg.agentIdLimit.toNat_lt

theorem exact_data (cfg : Config) : cfg.data.Exact :=
  exact_bytes cfg.payloadLimit.toNat_lt

end Config

theorem Digest.exact_layout : Digest.layout.Exact where
  read_write {d} rest _ := by simp [Digest.layout, ofBytes?, d.length_eq]
  eq_of_read {input d rest} h := by
    obtain ⟨d', hd, heq⟩ := Option.map_eq_some_iff.mp h
    cases heq
    refine ⟨rfl, ?_⟩
    unfold ofBytes? at hd
    split at hd
    · cases hd
      exact (List.take_append_drop 32 input).symm
    · cases hd

theorem Acknowledgement.exact_layout (cfg : Config) : (Acknowledgement.layout cfg).Exact :=
  exact_via
    (exact_pair exact_bool (exact_pair (exact_option exact_word16) cfg.exact_data))
    (fun _ _ => rfl) fun _ => rfl

theorem Payload.exact_layout (cfg : Config) : (Payload.layout cfg).Exact := by
  refine exact_oneOf (by simp [cases]) ?_ ?_
  · simp only [cases, List.forall_mem_cons]
    refine ⟨.of cfg.exact_data (fun _ => rfl) ?_,
      .of (exact_pair exact_word64 (exact_pair exact_word64 (exact_pair
        (exact_option cfg.exact_agentIds) Digest.exact_layout))) (fun _ => rfl) ?_,
      .of (exact_pair exact_word64 (exact_pair exact_int32 Digest.exact_layout))
        (fun _ => rfl) ?_,
      .of (exact_pair cfg.exact_data cfg.exact_data) (fun _ => rfl) ?_,
      .of (Acknowledgement.exact_layout cfg) (fun _ => rfl) ?_, by simp⟩
    all_goals
      intro a x h
      cases a
      -- only the constructor of this case gives anything to write
      all_goals cases h
      rfl
  · simp [cases, Case.Apart, Case.of]

theorem Packet.exact_layout (cfg : Config) : (Packet.layout cfg).Exact :=
  exact_via
    (exact_pair exact_word64 (exact_pair cfg.exact_channelIds (exact_pair cfg.exact_chainIds
      (exact_pair cfg.exact_channelIds (exact_pair (exact_option cfg.exact_agentIds)
        (exact_pair (Payload.exact_layout cfg) exact_word32))))))
    (fun _ _ => rfl) fun _ => rfl

theorem Packet.Pledge.exact_layout (cfg : Config) : (Pledge.layout cfg).Exact :=
  exact_via
    (exact_pair exact_anyBytes (exact_pair cfg.exact_channelIds (exact_pair exact_word64
      (exact_pair exact_word32 (exact_pair cfg.exact_chainIds (exact_pair cfg.exact_channelIds
        (exact_pair (exact_option cfg.exact_agentIds) Digest.exact_layout)))))))
    (fun _ _ => rfl) fun _ => rfl

theorem Commitment.exact_layout : Commitment.layout.Exact :=
  exact_via (exact_pair Digest.exact_layout exact_word32) (fun _ _ => rfl) fun _ => rfl

theorem Receipt.exact_layout (cfg : Config) : (Receipt.layout cfg).Exact :=
  exact_via
    (exact_pair exact_word32 (exact_pair exact_word32 (Acknowledgement.exact_layout cfg)))
    (fun _ _ => rfl) fun _ => rfl

theorem AckRecord.exact_layout (cfg : Config) : (AckRecord.layout cfg).Exact :=
  exact_via (exact_pair (Acknowledgement.exact_layout cfg) exact_word32) (fun _ _ => rfl)
    fun _ => rfl

theorem Sequences.exact_layout : Sequences.layout.Exact :=
  exact_via (exact_pair exact_word64 (exact_pair exact_word64 exact_word64)) (fun _ _ => rfl)
    fun _ => rfl

theorem ChannelState.exact_layout : ChannelState.layout.Exact := by
  refine exact_oneOf (by decide) ?_ ?_
  · intro c hc
    obtain ⟨s, -, rfl⟩ := List.mem_map.mp hc
    refine .of exact_nothing (fun x => by simp) fun t x h => ?_
    split at h
    · assumption
    · cases h
  · simp [cases, Case.Apart, Case.of]

theorem Channel.exact_layout (cfg : Config) : (Channel.layout cfg).Exact :=
  exact_via
    (exact_pair cfg.exact_channelIds (exact_pair cfg.exact_chainIds (exact_pair cfg.exact_channelIds
      (exact_pair ChannelState.exact_layout (exact_pair exact_word32
        (exact_pair (exact_option exact_word32) (exact_option exact_word32)))))))
    (fun _ _ => rfl) fun _ => rfl

theorem Call.exact_layout (cfg : Config) : (Call.layout cfg).Exact := by
  have hpair := exact_pair exact_anyBytes exact_anyBytes
  have hnumbered := exact_pair exact_anyBytes exact_word64
  have hagent := exact_pair exact_anyBytes (exact_pair exact_anyBytes exact_word64)
  have hsend := exact_pair exact_anyBytes (exact_pair exact_anyBytes (exact_pair exact_anyBytes
    (exact_pair (exact_option exact_anyBytes) (Payload.exact_layout cfg))))
  have hack := exact_pair exact_anyBytes
    (exact_pair exact_word64 (Acknowledgement.exact_layout cfg))
  have hprune := exact_pair exact_anyBytes (exact_list exact_word64 cfg.pruneLimit.toNat_lt)
  refine exact_oneOf (by simp [cases]) ?_ ?_
  · simp only [cases, List.forall_mem_cons]
    refine ⟨.of hpair (fun _ => rfl) ?_, .of exact_anyBytes (fun _ => rfl) ?_,
      .of exact_anyBytes (fun _ => rfl) ?_, .of exact_anyBytes (fun _ => rfl) ?_,
      .of hsend (fun _ => rfl) ?_, .of (Packet.exact_layout cfg) (fun _ => rfl) ?_,
      .of hack (fun _ => rfl) ?_, .of hnumbered (fun _ => rfl) ?_,
      .of exact_word64 (fun _ => rfl) ?_, .of exact_word64 (fun _ => rfl) ?_,
      .of hagent (fun _ => rfl) ?_, .of hpair (fun _ => rfl) ?_,
      .of hprune (fun _ => rfl) ?_, by simp⟩
    all_goals
      intro a x h
      cases a
      -- only the constructor of this case gives anything to write
      all_goals cases h
      rfl
  · simp [cases, Case.Apart, Case.of]

theorem Event.exact_layout (cfg : Config) : (Event.layout cfg).Exact := by
  have hsigned := exact_pair exact_anyBytes exact_word64
  have hagent := exact_pair exact_anyBytes (exact_pair exact_anyBytes exact_word64)
  have hanswer := exact_pair exact_bool (exact_option exact_word16)
  refine exact_oneOf (by simp [cases]) ?_ ?_
  · simp only [cases, List.forall_mem_cons]
    refine ⟨.of (exact_pair exact_anyBytes (exact_pair exact_anyBytes exact_anyBytes))
        (fun _ => rfl) ?_, .of hsigned (fun _ => rfl) ?_, .of exact_anyBytes (fun _ => rfl) ?_,
      .of hsigned (fun _ => rfl) ?_,
      .of (exact_pair exact_word64 (exact_pair (Packet.exact_layout cfg) Digest.exact_layout))
        (fun _ => rfl) ?_,
      .of (exact_pair exact_anyBytes (exact_pair exact_word64 (exact_pair exact_word64
        (exact_pair (exact_option exact_word64) hanswer)))) (fun _ => rfl) ?_,
      .of (exact_pair exact_anyBytes (exact_pair exact_word64 hanswer)) (fun _ => rfl) ?_,
      .of hsigned (fun _ => rfl) ?_,
      .of (exact_pair exact_anyBytes exact_word32) (fun _ => rfl) ?_,
      .of exact_word64 (fun _ => rfl) ?_, .of exact_word64 (fun _ => rfl) ?_,
      .of hagent (fun _ => rfl) ?_, .of hagent (fun _ => rfl) ?_, by simp⟩
    all_goals
      intro a x h
      cases a
      -- only the constructor of this case gives anything to write
      all_goals cases h
      rfl
  · simp [cases, Case.Apart, Case.of]

end RelayLedger
