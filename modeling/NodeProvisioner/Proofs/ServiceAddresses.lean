import NodeProvisioner.Bootstrap.Provisions
import NodeProvisioner.Proofs.Net.Blocks

/-!
# Addresses of services

A cluster sets a block of addresses apart for its services, and the API server is the service that
gets the first host of this block. The certificate of the API server has to be good for it.

The block is given in text. Every text either is one of a block, and then the host is the same for
all texts of the block, or it has no host.

Main statement: `firstHostText?_finds`.
-/

namespace NodeProvisioner

variable {text : String} {b : AddressBlock}

/-! ## Texts -/

theorem firstHostText?_of_isWritten (h : b.IsWritten text) :
    firstHostText? text = b.firstHost?.map dotted := by
  have read := AddressBlock.parse_eq_some_iff.mpr h
  simp only [firstHostText?, read, Option.bind_eq_bind, Option.bind_some, Option.pure_def,
    pointed_toOctets]
  exact Option.map_eq_bind.symm

theorem firstHostText?_of_not_isWritten (h : ∀ b : AddressBlock, ¬b.IsWritten text) :
    firstHostText? text = none := by
  have unread : AddressBlock.parse text = none :=
    Option.eq_none_iff_forall_ne_some.mpr fun b read => h b (AddressBlock.parse_eq_some_iff.mp read)
  simp only [firstHostText?, unread, Option.bind_eq_bind, Option.bind_none]

/-- The first host of a block in text, or `none` if its arithmetic aborts. -/
def firstHostTextOrAbort (block : String) : Option (Option String) :=
  match AddressBlock.parse block with
  | none => some none
  | some b => b.firstHostOrAbort.map fun host? =>
    host?.map fun host => IpAddress.pointed (toOctets host)

theorem firstHostTextOrAbort_eq (text : String) :
    firstHostTextOrAbort text = some (firstHostText? text) := by
  unfold firstHostTextOrAbort firstHostText?
  cases AddressBlock.parse text with
  | none => rfl
  | some b =>
    simp only [b.firstHostOrAbort_eq, Option.map_some]
    exact congrArg some Option.map_eq_bind

/-! ## Names of API servers -/

/-- The address that a word stands for. -/
def IpAddress.ofWord (n : UInt32) : IpAddress := ⟨toOctets n, .inl rfl⟩

theorem IpAddress.parse_dotted (n : UInt32) : parse (dotted n) = some (ofWord n) := by
  obtain ⟨x, y, z, w, octets, -⟩ := exists_toOctets n
  have read : fourOctets? (dotted n).toList = some (toOctets n, []) := by
    refine fourOctets?_eq_some_iff.mpr ⟨x, y, z, w, octets, ?_, nofun⟩
    rw [← pointed_toOctets, octets, toList_pointed, List.append_nil]
  have address : ofOctets? (toOctets n) = some (ofWord n) := ofOctets?_octets (ofWord n)
  unfold parse
  rw [read]
  exact address

/-- The first host is not lost on the way to the certificate, where only addresses count. -/
theorem Provisions.mem_addresses_serverNames {c : Cluster} {host : UInt32}
    (found : firstHostText? c.spec.network.services.firstOrEmpty = some (dotted host))
    (p : Provisions) (m : Machine) (spec : MachineProviderSpec) :
    .ofWord host ∈ (p.serverNames c m spec).addresses := by
  refine List.mem_filterMap.mpr ⟨dotted host, ?_, IpAddress.parse_dotted host⟩
  simp only [found, Option.toList_some, List.mem_append, List.mem_singleton, true_or, or_true]

/-! ## First hosts -/

/-- **The address of the API server** among the services of a cluster. If a text is one of a block
with a prefix of up to 30 bits, the address is the one after the network: it is in the block and at
neither end of it, it is the same for all texts of the block, and a certificate is asked for that is
good for it. For longer prefixes, and for texts of no block, there is none. No text leads to an
overflow. -/
theorem firstHostText?_finds :
    (∀ (b : AddressBlock) (text : String), b.IsWritten text →
      (b.length ≤ 30 → ∃ network host broadcast, b.Layout network host broadcast ∧
        firstHostText? text = some (dotted host) ∧
        (∀ address other, b.Contains address →
          AddressBlock.IsWritten ⟨address, b.length⟩ other →
          firstHostText? other = some (dotted host)) ∧
        ∀ (c : Cluster) (p : Provisions) (m : Machine) (spec : MachineProviderSpec),
          c.spec.network.services.firstOrEmpty = text →
          .ofWord host ∈ (p.serverNames c m spec).addresses) ∧
      (31 ≤ b.length → firstHostText? text = none)) ∧
    (∀ text, (∀ b : AddressBlock, ¬b.IsWritten text) → firstHostText? text = none) ∧
    ∀ text, firstHostTextOrAbort text = some (firstHostText? text) := by
  refine ⟨fun b text written => ⟨fun short => ?_, fun long => ?_⟩,
    fun text => firstHostText?_of_not_isWritten, firstHostTextOrAbort_eq⟩
  · have short : b.length.toNat ≤ 30 := UInt32.le_iff_toNat_le.mp short
    have found : firstHostText? text = some (dotted (b.network + 1)) := by
      rw [firstHostText?_of_isWritten written, AddressBlock.firstHost?_of_le short, Option.map_some]
    obtain ⟨broadcast, layout⟩ := AddressBlock.exists_layout short
    refine ⟨_, _, broadcast, layout, found, ?same, ?named⟩
    case same =>
      intro address other inside written'
      rw [firstHostText?_of_isWritten written', AddressBlock.firstHost?_of_contains inside,
        ← firstHostText?_of_isWritten written, found]
    case named =>
      rintro c p m spec rfl
      exact Provisions.mem_addresses_serverNames found p m spec
  · rw [firstHostText?_of_isWritten written,
      AddressBlock.firstHost?_of_ge (AddressBlock.length_ge_iff.mp long), Option.map_none]

/-- The last block that has hosts, and texts that have none. -/
theorem firstHostText?_finds_last :
    let b : AddressBlock := ⟨ofOctets [255, 255, 255, 255], 30⟩
    let c : Cluster := { spec := { network := { services := ⟨["255.255.255.255/+0030"]⟩ } } }
    (b.IsWritten "255.255.255.255/+0030" ∧ b.length ≤ 30 ∧
      ∃ network host broadcast, b.Layout network host broadcast ∧
        dotted host = "255.255.255.253" ∧
        firstHostText? "255.255.255.255/+0030" = some "255.255.255.253" ∧
        b.Contains (ofOctets [255, 255, 255, 252]) ∧
        firstHostText? "255.255.255.252/30" = some "255.255.255.253" ∧
        .ofWord host ∈ ((default : Provisions).serverNames c default default).addresses) ∧
    firstHostTextOrAbort "255.255.255.255/+0030" = some (some "255.255.255.253") ∧
    (AddressBlock.IsWritten ⟨ofOctets [10, 0, 0, 0], 31⟩ "10.0.0.0/31" ∧
      firstHostText? "10.0.0.0/31" = none) ∧
    (∀ b : AddressBlock, ¬b.IsWritten "fd00::/64") ∧ firstHostText? "fd00::/64" = none := by
  intro b c
  obtain ⟨finds, others, exactly⟩ := firstHostText?_finds
  have written : b.IsWritten "255.255.255.255/+0030" :=
    AddressBlock.parse_eq_some_iff.mp (by decide)
  obtain ⟨network, host, broadcast, layout, found, same, named⟩ :=
    (finds b _ written).1 (by decide)
  have text : dotted host = "255.255.255.253" := Option.some.inj (found.symm.trans (by decide))
  have inside : b.Contains (ofOctets [255, 255, 255, 252]) := by decide
  have other := same _ "255.255.255.252/30" inside (AddressBlock.parse_eq_some_iff.mp (by decide))
  have long : AddressBlock.IsWritten ⟨ofOctets [10, 0, 0, 0], 31⟩ "10.0.0.0/31" :=
    AddressBlock.parse_eq_some_iff.mp (by decide)
  have foreign (b : AddressBlock) : ¬b.IsWritten "fd00::/64" := fun written => by
    have read := AddressBlock.parse_eq_some_iff.mpr written
    have unread : AddressBlock.parse "fd00::/64" = none := by decide
    exact absurd (unread.symm.trans read) nofun
  exact ⟨⟨written, by decide, network, host, broadcast, layout, text, text ▸ found, inside,
    text ▸ other, named c default default default rfl⟩,
    (exactly _).trans (congrArg some (text ▸ found)), ⟨long, (finds _ _ long).2 (by decide)⟩,
    foreign, others _ foreign⟩

/-- A prefix of no bits, and texts that are not those of a block. -/
example : firstHostText? "255.255.255.255/0" = some "0.0.0.1" ∧
    ["", "10.0.0.0", "10.0.0.0/8/8", "10.0.0/8", "010.0.0.0/8", "10.0.0.0/0x8",
      "10.0.0.0/4294967296"].map firstHostText? = List.replicate 7 none := by decide

end NodeProvisioner
