import SdkNrf.Type4Tag.CapabilityContainer

/-!
# The grammar of the capability container

The parser takes a file exactly when it is a header and a sequence of well-formed blocks that ends with the
file, the first of which goes with the version.
-/

namespace SdkNrf.Type4Tag.CapabilityContainer

open Reading

/-- The first block goes with the major version `major`. -/
def MatchesVersion (major : Nat) (first : TlvBlock) : Prop :=
  (major = 3 ∧ first.type = extendedNdefFileControlTlv) ∨
    (major = 2 ∧ first.type = ndefFileControlTlv)

/-- The file `raw` is a header and `first :: blocks`. -/
structure CcGrammar (raw : Memory) (first : TlvBlock) (blocks : List TlvBlock) : Prop where
  len_ge : 15 ≤ raw.length
  len_le : raw.length ≤ 65534
  wellFormed : ∀ b ∈ first :: blocks, b.WellFormed
  bytes : raw.drop 7 = (first :: blocks).flatMap TlvBlock.bytes
  version : MatchesVersion ((raw.getD 2 0).toNat / 16) first

/-- The descriptor has room for the blocks of the file. -/
def CcFile.HasRoom (file : CcFile) (raw : Memory) : Prop :=
  ∀ first blocks, CcGrammar raw first blocks → (first :: blocks).length ≤ file.maxTlvBlocks

section Blocks

variable {raw : Memory} {offset len : Nat} {file : CcFile}

theorem tlvBlockInsert_eq_ok_iff {file' : CcFile} {b : TlvBlock}
    (hroom : file.tlvBlocks.length ≤ file.maxTlvBlocks) :
    tlvBlockInsert file b = .ok file' ↔ file.tlvBlocks.length + 1 ≤ file.maxTlvBlocks ∧
      file' = { file with tlvBlocks := file.tlvBlocks ++ [b] } := by
  unfold tlvBlockInsert
  split_ifs with hfull
  · exact iff_of_false (by simp) (fun h => by omega)
  · rw [Except.ok.injEq, eq_comm]
    exact ⟨fun h => ⟨by omega, h⟩, fun h => h.2⟩

theorem tlvBlocksParse_round {b : TlvBlock} {n : Nat} {file' : CcFile} (hlen : len ≠ 0)
    (hparse : (tlvBlockParse raw offset len).result = .ok (b, n))
    (hinsert : tlvBlockInsert file b = .ok file') :
    tlvBlocksParse raw offset len file =
      (tlvBlocksParse raw (offset + n) (len - n) file').after
        (tlvBlockParse raw offset len).reads := by
  rw [tlvBlocksParse, if_neg hlen]
  split
  next e he => rw [hparse] at he; cases he
  next newBlock tlvLen hok =>
    rw [hparse] at hok
    cases hok
    rw [hinsert]

theorem tlvBlocksParse_eq_none (hlen : len ≠ 0)
    (h : (tlvBlocksParse raw offset len file).err = none) :
    ∃ b n file', (tlvBlockParse raw offset len).result = .ok (b, n) ∧
      tlvBlockInsert file b = .ok file' := by
  rw [tlvBlocksParse, if_neg hlen] at h
  split at h
  next e he => cases h
  next b n hok =>
    split at h
    next e he => cases h
    next file' hinsert => exact ⟨b, n, file', hok, hinsert⟩

/-- The blocks `blocks` stand at `offset` up to the end, and there is room for them. -/
structure Stands (raw : Memory) (offset len : Nat) (file : CcFile) (blocks : List TlvBlock) :
    Prop where
  wellFormed : ∀ b ∈ blocks, b.WellFormed
  bytes : bytesAt raw offset len = blocks.flatMap TlvBlock.bytes
  room : file.tlvBlocks.length + blocks.length ≤ file.maxTlvBlocks

/-- The descriptor with `blocks` behind those that it has. -/
def CcFile.append (file : CcFile) (blocks : List TlvBlock) : CcFile :=
  { file with tlvBlocks := file.tlvBlocks ++ blocks }

theorem Stands.cons_iff {b : TlvBlock} {blocks : List TlvBlock} :
    Stands raw offset len file (b :: blocks) ↔
      ((tlvBlockParse raw offset len).result = .ok (b, b.length + 2) ∧
        file.tlvBlocks.length + 1 ≤ file.maxTlvBlocks) ∧
      Stands raw (offset + (b.length + 2)) (len - (b.length + 2)) (file.append [b]) blocks := by
  have hlist : (file.append [b]).tlvBlocks.length = file.tlvBlocks.length + 1 := by
    rw [CcFile.append, List.length_append, List.length_singleton]
  have hmax : (file.append [b]).maxTlvBlocks = file.maxTlvBlocks := rfl
  constructor
  · intro h
    have hb := h.wellFormed b List.mem_cons_self
    have hblen := TlvBlock.length_bytes hb.kind
    have hbytes := h.bytes
    rw [List.flatMap_cons] at hbytes
    have hlen := congrArg List.length hbytes
    rw [length_bytesAt, List.length_append, hblen] at hlen
    have hsplit : len = b.length + 2 + (len - (b.length + 2)) := by omega
    rw [hsplit, bytesAt_eq_append_iff hblen] at hbytes
    have hroom := h.room
    rw [List.length_cons] at hroom
    refine ⟨⟨tlvBlockParse_eq_ok_iff.mpr ⟨hb, rfl, by omega, hbytes.1⟩, by omega⟩, ?_, hbytes.2, ?_⟩
    · exact fun b' hb' => h.wellFormed b' (List.mem_cons_of_mem b hb')
    · rw [hlist, hmax]
      omega
  · rintro ⟨⟨hparse, hone⟩, h⟩
    obtain ⟨hb, -, hle, hbytes⟩ := tlvBlockParse_eq_ok_iff.mp hparse
    have hroom := h.room
    rw [hlist, hmax] at hroom
    have hsplit : len = b.length + 2 + (len - (b.length + 2)) := by omega
    refine ⟨List.forall_mem_cons.mpr ⟨hb, h.wellFormed⟩, ?_, ?_⟩
    · rw [List.flatMap_cons, hsplit, bytesAt_eq_append_iff (TlvBlock.length_bytes hb.kind)]
      exact ⟨hbytes, h.bytes⟩
    · rw [List.length_cons]
      omega

theorem Stands.nil_iff (hroom : file.tlvBlocks.length ≤ file.maxTlvBlocks) :
    Stands raw offset len file [] ↔ len = 0 := by
  constructor
  · intro h
    have hlen := congrArg List.length h.bytes
    rwa [length_bytesAt] at hlen
  · rintro rfl
    exact ⟨fun b hb => absurd hb List.not_mem_nil, rfl, hroom⟩

theorem Stands.parse {blocks : List TlvBlock} (h : Stands raw offset len file blocks) :
    (tlvBlocksParse raw offset len file).err = none ∧
      (tlvBlocksParse raw offset len file).file = file.append blocks := by
  induction blocks generalizing offset len file with
  | nil =>
    have hroom := h.room
    obtain rfl := (Stands.nil_iff (by simpa using hroom)).mp h
    rw [tlvBlocksParse, if_pos rfl]
    simp [CcFile.append]
  | cons b blocks ih =>
    obtain ⟨⟨hparse, hroom⟩, hrest⟩ := Stands.cons_iff.mp h
    obtain ⟨-, -, hle, -⟩ := tlvBlockParse_eq_ok_iff.mp hparse
    have hinsert := (tlvBlockInsert_eq_ok_iff (b := b) (by omega)).mpr ⟨hroom, rfl⟩
    rw [tlvBlocksParse_round (by omega) hparse hinsert]
    obtain ⟨herr, hfile⟩ := ih hrest
    refine ⟨herr, hfile.trans ?_⟩
    simp [CcFile.append]

theorem exists_stands (hroom : file.tlvBlocks.length ≤ file.maxTlvBlocks)
    (h : (tlvBlocksParse raw offset len file).err = none) :
    ∃ blocks, Stands raw offset len file blocks := by
  induction hn : len using Nat.strongRecOn generalizing offset len file with
  | ind m ih =>
    subst hn
    by_cases hlen : len = 0
    · exact ⟨[], (Stands.nil_iff hroom).mpr hlen⟩
    obtain ⟨b, n, file', hparse, hinsert⟩ := tlvBlocksParse_eq_none hlen h
    obtain ⟨-, rfl, hle, -⟩ := tlvBlockParse_eq_ok_iff.mp hparse
    obtain ⟨hone, rfl⟩ := (tlvBlockInsert_eq_ok_iff hroom).mp hinsert
    rw [tlvBlocksParse_round hlen hparse hinsert] at h
    obtain ⟨blocks, hblocks⟩ := ih (len - (b.length + 2)) (by omega) (by simpa using hone) h rfl
    exact ⟨b :: blocks, Stands.cons_iff.mpr ⟨⟨hparse, hone⟩, hblocks⟩⟩

theorem tlvBlocksParse_reads (raw : Memory) (offset len : Nat) (file : CcFile) :
    ∀ i ∈ (tlvBlocksParse raw offset len file).reads, i < offset + len := by
  induction hn : len using Nat.strongRecOn generalizing offset len file with
  | ind m ih =>
    subst hn
    rw [tlvBlocksParse]
    split_ifs with hlen
    · exact fun i hi => absurd hi List.not_mem_nil
    split
    next e he => exact within_tlvBlockParse
    next b n hparse =>
      obtain ⟨-, rfl, hle, -⟩ := tlvBlockParse_eq_ok_iff.mp hparse
      split
      next e he => exact within_tlvBlockParse
      next file' hinsert =>
        intro i hi
        rcases List.mem_append.mp hi with h | h
        · exact within_tlvBlockParse i h
        · have := ih (len - (b.length + 2)) (by omega) _ _ file' rfl i h
          omega

end Blocks

section File

variable {raw : Memory} {file : CcFile} {first : TlvBlock} {blocks : List TlvBlock}

theorem headerParse_room (file : CcFile) (raw : Memory) :
    (headerParse file raw).tlvBlocks.length ≤ (headerParse file raw).maxTlvBlocks := Nat.zero_le _

theorem majorVersion_headerParse (file : CcFile) (raw : Memory) :
    (headerParse file raw).majorVersion = (raw.getD 2 0).toNat / 16 := by
  have hnibble : ∀ b : UInt8, (b >>> 4 &&& 0x0F).toNat = b.toNat / 16 := by decide +kernel
  exact hnibble _

theorem ccArgsValidate_eq_none_iff {len : Nat} :
    ccArgsValidate file len = none ↔ 15 ≤ len ∧ len ≤ 65534 ∧ file.maxTlvBlocks ≠ 0 := by
  unfold ccArgsValidate
  split_ifs with hlen hmax
  · exact iff_of_false (by simp) (fun h => by omega)
  · exact iff_of_false (by simp) (fun h => h.2.2 hmax)
  · exact iff_of_true rfl ⟨by omega, by omega, hmax⟩

theorem ccFileValidate_eq_none_iff {rest : List TlvBlock} (h : file.tlvBlocks = first :: rest) :
    ccFileValidate file = none ↔ MatchesVersion file.majorVersion first := by
  unfold ccFileValidate MatchesVersion
  rw [h, List.head?_cons]
  dsimp only
  split_ifs with hversion
  · exact iff_of_true rfl hversion
  · exact iff_of_false (by rintro ⟨⟩) hversion

theorem ccFileValidate_append (file : CcFile) (raw : Memory) (blocks : List TlvBlock) :
    ccFileValidate ((headerParse file raw).append blocks) = none ↔
      ∃ first rest, blocks = first :: rest ∧
        MatchesVersion ((raw.getD 2 0).toNat / 16) first := by
  cases blocks with
  | nil => exact iff_of_false (by rintro ⟨⟩) (by simp)
  | cons first rest =>
    have hmajor : ((headerParse file raw).append (first :: rest)).majorVersion =
        (raw.getD 2 0).toNat / 16 := majorVersion_headerParse file raw
    rw [ccFileValidate_eq_none_iff rfl, hmajor]
    simp

theorem ccFileParse_err (hargs : ccArgsValidate file raw.length = none) :
    (ccFileParse file raw raw.length).err = none ↔
      (tlvBlocksParse raw 7 (raw.length - 7) (headerParse file raw)).err = none ∧
        ccFileValidate (tlvBlocksParse raw 7 (raw.length - 7) (headerParse file raw)).file =
          none := by
  unfold ccFileParse
  rw [hargs]
  simp only [ParseOutcome.after]
  cases herr : (tlvBlocksParse raw 7 (raw.length - 7) (headerParse file raw)).err with
  | none => simp
  | some e => simp

theorem ccFileParse_file (hargs : ccArgsValidate file raw.length = none) :
    (ccFileParse file raw raw.length).file =
      (tlvBlocksParse raw 7 (raw.length - 7) (headerParse file raw)).file := by
  unfold ccFileParse
  rw [hargs]
  simp only [ParseOutcome.after]
  cases (tlvBlocksParse raw 7 (raw.length - 7) (headerParse file raw)).err <;> rfl

theorem ccFileParse_reads (file : CcFile) (raw : Memory) :
    ∀ i ∈ (ccFileParse file raw raw.length).reads, i < raw.length := by
  unfold ccFileParse
  cases hargs : ccArgsValidate file raw.length with
  | some e => exact fun i hi => absurd hi List.not_mem_nil
  | none =>
    have hlen := (ccArgsValidate_eq_none_iff.mp hargs).1
    have hreads : ∀ i ∈ List.range 7 ++
        (tlvBlocksParse raw 7 (raw.length - 7) (headerParse file raw)).reads, i < raw.length := by
      intro i hi
      rcases List.mem_append.mp hi with h | h
      · have := List.mem_range.mp h
        omega
      · have := tlvBlocksParse_reads raw 7 (raw.length - 7) _ i h
        omega
    simp only [ParseOutcome.after]
    cases (tlvBlocksParse raw 7 (raw.length - 7) (headerParse file raw)).err <;> exact hreads

theorem length_flatMap_bytes {blocks : List TlvBlock} (h : ∀ b ∈ blocks, b.WellFormed) :
    8 * blocks.length ≤ (blocks.flatMap TlvBlock.bytes).length := by
  induction blocks with
  | nil => exact Nat.le_refl 0
  | cons b blocks ih =>
    have hb := (h b List.mem_cons_self).kind
    have hlen := TlvBlock.length_bytes hb
    have hsix := hb.length_eq
    have hrest := ih fun b' hb' => h b' (List.mem_cons_of_mem b hb')
    rw [List.flatMap_cons, List.length_append, List.length_cons]
    omega

theorem bytesAt_header (h : 7 ≤ raw.length) : bytesAt raw 7 (raw.length - 7) = raw.drop 7 := by
  rw [bytesAt_eq_slice (by omega), Memory.slice]
  apply List.take_of_length_le
  rw [List.length_drop]

/-- A block takes at least eight bytes. -/
theorem CcFile.hasRoom_of_length_lt (h : raw.length < 8 * (file.maxTlvBlocks + 1) + 7) :
    file.HasRoom raw := by
  intro first blocks hgrammar
  have hcount := length_flatMap_bytes hgrammar.wellFormed
  rw [← hgrammar.bytes, List.length_drop] at hcount
  have hge := hgrammar.len_ge
  omega

theorem CcGrammar.stands (h : CcGrammar raw first blocks) (hroom : file.HasRoom raw) :
    Stands raw 7 (raw.length - 7) (headerParse file raw) (first :: blocks) := by
  have hge := h.len_ge
  refine ⟨h.wellFormed, (bytesAt_header (by omega)).trans h.bytes, ?_⟩
  change 0 + _ ≤ file.maxTlvBlocks
  rw [Nat.zero_add]
  exact hroom first blocks h

theorem CcGrammar.args (h : CcGrammar raw first blocks) (hroom : file.HasRoom raw) :
    ccArgsValidate file raw.length = none := by
  have hone := hroom first blocks h
  rw [List.length_cons] at hone
  exact ccArgsValidate_eq_none_iff.mpr ⟨h.len_ge, h.len_le, by omega⟩

end File

/-- With room for the blocks, the parser takes exactly the files of the grammar, and stores their
blocks in order. It never reads behind the file. -/
theorem ccFileParse_accepts_iff (file : CcFile) (raw : Memory) :
    (file.HasRoom raw →
      ((ccFileParse file raw raw.length).err = none ↔ ∃ first blocks, CcGrammar raw first blocks) ∧
        ∀ first blocks, CcGrammar raw first blocks →
          (ccFileParse file raw raw.length).file.tlvBlocks = first :: blocks) ∧
      ∀ i ∈ (ccFileParse file raw raw.length).reads, i < raw.length := by
  refine ⟨fun hroom => ⟨⟨?_, ?_⟩, ?_⟩, ccFileParse_reads file raw⟩
  · intro herr
    have hargs : ccArgsValidate file raw.length = none := by
      by_contra hargs
      obtain ⟨e, he⟩ := Option.ne_none_iff_exists'.mp hargs
      rw [ccFileParse, he] at herr
      cases herr
    obtain ⟨hge, hle, -⟩ := ccArgsValidate_eq_none_iff.mp hargs
    obtain ⟨hloop, hvalidate⟩ := (ccFileParse_err hargs).mp herr
    obtain ⟨blocks, hblocks⟩ := exists_stands (headerParse_room file raw) hloop
    rw [hblocks.parse.2, ccFileValidate_append] at hvalidate
    obtain ⟨first, rest, rfl, hversion⟩ := hvalidate
    have hbytes := hblocks.bytes
    rw [bytesAt_header (by omega)] at hbytes
    exact ⟨first, rest, hge, hle, hblocks.wellFormed, hbytes, hversion⟩
  · rintro ⟨first, blocks, hgrammar⟩
    obtain ⟨hloop, hfile⟩ := (hgrammar.stands hroom).parse
    rw [ccFileParse_err (hgrammar.args hroom), hfile, ccFileValidate_append]
    exact ⟨hloop, first, blocks, rfl, hgrammar.version⟩
  · intro first blocks hgrammar
    rw [ccFileParse_file (hgrammar.args hroom), (hgrammar.stands hroom).parse.2]
    rfl

private def exampleFile : Memory :=
  [0x00, 0x17, 0x20, 0x00, 0x3B, 0x00, 0x34,
    0x04, 0x06, 0xE1, 0x04, 0x04, 0x00, 0x00, 0x00,
    0x05, 0x06, 0xE1, 0x05, 0x00, 0x40, 0x00, 0xFF]

private def exampleBlocks : TlvBlock × TlvBlock :=
  (⟨⟨none, 0x400, 0xE104, 0x00, 0x00⟩, 6, 0x04⟩, ⟨⟨none, 0x40, 0xE105, 0x00, 0xFF⟩, 6, 0x05⟩)

private def exampleDescriptor : CcFile := ⟨[], 2, 0, 0, 0, 0, 0⟩

private theorem exampleFile_grammar : CcGrammar exampleFile exampleBlocks.1 [exampleBlocks.2] where
  len_ge := by decide
  len_le := by decide
  wellFormed := by
    rintro b hb
    rcases List.mem_pair.mp hb with rfl | rfl <;>
      exact ⟨by unfold KnownKind; decide, by decide, by decide, by decide, by decide, rfl⟩
  bytes := by decide
  version := Or.inr ⟨rfl, rfl⟩

theorem exampleFile_accepted :
    (ccFileParse exampleDescriptor exampleFile 23).err = none ∧
      (ccFileParse exampleDescriptor exampleFile 23).file.tlvBlocks =
        [exampleBlocks.1, exampleBlocks.2] := by
  have hroom : exampleDescriptor.HasRoom exampleFile := CcFile.hasRoom_of_length_lt (by decide)
  obtain ⟨haccepts, hstored⟩ := (ccFileParse_accepts_iff exampleDescriptor exampleFile).1 hroom
  exact ⟨haccepts.mpr ⟨_, _, exampleFile_grammar⟩, hstored _ _ exampleFile_grammar⟩

end SdkNrf.Type4Tag.CapabilityContainer
