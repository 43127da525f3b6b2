import SdkNrf.Ndef.LeOob

/-!
# LE Out-of-Band records come back

What the constructor encodes is parsed back as long as the length of the local name survives its two
conversions to a byte.
-/

namespace SdkNrf.Ndef

namespace LeOobDesc

/-- What the constructor accepts, with a local name that is not empty. -/
structure Accepted (d : LeOobDesc) : Prop where
  addr : ∃ addr, d.addr = some addr
  leRole : ∃ leRole, d.leRole = some leRole ∧ leRole < 4
  flags : ∀ flags ∈ d.flags, flags &&& btLeAdNoBredr ≠ 0
  localName : ∀ name ∈ d.localName, name.val ≠ []

def payloadSize (d : LeOobDesc) : Nat :=
  9 + 3 + d.tkValue.elim 0 (fun _ => 18) + d.leScData.elim 0 (fun _ => 36) +
    d.appearance.elim 0 (fun _ => 4) + d.flags.elim 0 (fun _ => 3) +
    d.localName.elim 0 (fun name => btDataLen name.val + 2)

def bytesUsed (abi : LeOobAbi) (d : LeOobDesc) : Nat :=
  abi.recDescSize + 7 + abi.leRoleSize + d.tkValue.elim 0 (fun _ => 16) +
    d.leScData.elim 0 (fun _ => 32) + d.appearance.elim 0 (fun _ => 2) +
    d.flags.elim 0 (fun _ => 1) + d.localName.elim 0 (fun name => name.val.length + 1)

/-- The descriptor is encoded into `buff`, and the bytes are parsed back. -/
def RoundTrips (abi : LeOobAbi) (scInit : ScData) (buff : Memory) (resultBufLen : Nat)
    (d : LeOobDesc) : Prop :=
  ∃ mem n resultLen, leOobRecPayloadConstructor (some d) buff buff.length = .ok (mem, n) ∧
    leOobRecPayloadParse abi scInit (some mem) n resultBufLen = .ok (d, resultLen)

/-- The descriptors that differ only in the characters of the local name. -/
def SameLength (d d' : LeOobDesc) : Prop :=
  d' = { d with localName := d'.localName } ∧
    d'.localName.map (·.val.length) = d.localName.map (·.val.length)

def adStructures (d : LeOobDesc) (addr : BtAddrLe) (leRole : UInt32) : List (UInt8 × List UInt8) :=
  [(btDataLeBtDeviceAddress, addr.a.toList ++ [addr.type]), (btDataLeRole, [leRole.toUInt8])] ++
    d.tkValue.elim [] (fun tk => [(btDataSmTkValue, tk.toList)]) ++
    d.leScData.elim [] (fun sc =>
      [(btDataLeScConfirmValue, sc.c.toList), (btDataLeScRandomValue, sc.r.toList)]) ++
    d.appearance.elim [] (fun appearance => [(btDataGapAppearance, le16 appearance)]) ++
    d.flags.elim [] (fun flags => [(btDataFlags, [flags])])

def nameStructure (d : LeOobDesc) : List (UInt8 × List UInt8) :=
  d.localName.elim [] fun name => [(btDataNameComplete, name.val)]

end LeOobDesc

def adBytes (ads : List (UInt8 × List UInt8)) : List UInt8 :=
  ads.flatMap fun ad => adStructure ad.1 ad.2

@[simp] theorem adBytes_nil : adBytes [] = [] := rfl

@[simp] theorem adBytes_cons (ad : UInt8 × List UInt8) (ads : List (UInt8 × List UInt8)) :
    adBytes (ad :: ads) = adStructure ad.1 ad.2 ++ adBytes ads := rfl

@[simp] theorem adBytes_append (ads ads' : List (UInt8 × List UInt8)) :
    adBytes (ads ++ ads') = adBytes ads ++ adBytes ads' := List.flatMap_append

@[simp] theorem length_adStructure (type : UInt8) (data : List UInt8) :
    (adStructure type data).length = btDataLen data + 2 := by
  have hle : btDataLen data ≤ data.length := Nat.mod_le _ _
  simp only [adStructure, List.length_cons, List.length_take_of_le hle]

/-- `bt_data_encode` for one structure after the other. -/
def adEncode (ads : List (UInt8 × List UInt8)) (buff : AdBuffer) : Except Errno AdBuffer :=
  ads.foldlM (fun buff ad => btDataEncode ad.1 ad.2 buff) buff

theorem adEncode_of_le {ads : List (UInt8 × List UInt8)} {buff : AdBuffer}
    (h : (adBytes ads).length ≤ buff.size) :
    adEncode ads buff = .ok ⟨buff.bytes ++ adBytes ads, buff.size - (adBytes ads).length⟩ := by
  induction ads generalizing buff with
  | nil => simp [adEncode, pure, Except.pure]
  | cons ad ads ih =>
    rw [adBytes_cons, List.length_append, length_adStructure] at h
    have henc : btDataEncode ad.1 ad.2 buff =
        .ok ⟨buff.bytes ++ adStructure ad.1 ad.2, buff.size - (btDataLen ad.2 + 2)⟩ :=
      if_neg (by omega)
    unfold adEncode at ih ⊢
    rw [List.foldlM_cons, henc]
    simp only [bind, Except.bind]
    rw [ih (by dsimp only; omega)]
    simp only [adBytes_cons, List.append_assoc, List.length_append, length_adStructure,
      Nat.sub_sub]

def AdFits (ad : UInt8 × List UInt8) : Prop := 1 ≤ ad.2.length ∧ ad.2.length ≤ 254

theorem adLoop_cons (abi : LeOobAbi) (scInit : ScData) {ad : UInt8 × List UInt8} (had : AdFits ad)
    (rest : Memory) (left : Nat) (s : LeOobState) :
    adLoop abi scInit (adStructure ad.1 ad.2 ++ rest) ((adStructure ad.1 ad.2).length + left) s =
      (s.decode abi scInit ad.1 ad.2 ad.2.length >>= fun s => adLoop abi scInit rest left s) := by
  obtain ⟨hpos, hle⟩ := had
  have hlen : btDataLen ad.2 = ad.2.length := Nat.mod_eq_of_lt (by omega)
  have hbyte : (UInt8.ofNat (ad.2.length + 1)).toNat = ad.2.length + 1 := by
    rw [UInt8.toNat_ofNat', Nat.mod_eq_of_lt (by omega)]
  have hne : UInt8.ofNat (ad.2.length + 1) ≠ 1 := by
    intro h
    rw [h] at hbyte
    have : (1 : UInt8).toNat = 1 := rfl
    omega
  have hdata : (UInt8.ofNat (ad.2.length + 1) - 1).toNat = ad.2.length := by
    rw [UInt8.toNat_sub_of_le _ _ (by rw [UInt8.le_iff_toNat_le, hbyte]; simp), hbyte]
    rfl
  have hstructure : adStructure ad.1 ad.2 = UInt8.ofNat (ad.2.length + 1) :: ad.1 :: ad.2 := by
    rw [adStructure, hlen, List.take_length]
  rw [adLoop, dif_neg (by rw [length_adStructure]; omega), length_adStructure, hlen, hstructure]
  simp only [List.cons_append, List.getD_cons_zero, List.getD_cons_succ, hbyte, hdata]
  rw [if_neg (by rw [not_or]; exact ⟨hne, by omega⟩)]
  have hslice : Memory.slice (UInt8.ofNat (ad.2.length + 1) :: ad.1 :: (ad.2 ++ rest)) 2
      ad.2.length = ad.2 := by
    simp only [Memory.slice, List.drop_succ_cons, List.drop_zero, List.take_left]
  rw [hslice]
  simp only [List.drop_succ_cons, List.drop_left]
  congr
  funext s
  congr 1
  omega

def adDecode (abi : LeOobAbi) (scInit : ScData) (ads : List (UInt8 × List UInt8)) (s : LeOobState) :
    Except Errno LeOobState :=
  ads.foldlM (fun s ad => s.decode abi scInit ad.1 ad.2 ad.2.length) s

theorem adLoop_adBytes (abi : LeOobAbi) (scInit : ScData) {ads : List (UInt8 × List UInt8)}
    (hads : ∀ ad ∈ ads, AdFits ad) (rest : Memory) (left : Nat) (s : LeOobState) :
    adLoop abi scInit (adBytes ads ++ rest) ((adBytes ads).length + left) s =
      (adDecode abi scInit ads s >>= fun s => adLoop abi scInit rest left s) := by
  induction ads generalizing s with
  | nil => simp [adDecode]
  | cons ad ads ih =>
    obtain ⟨had, hads⟩ := List.forall_mem_cons.mp hads
    rw [adBytes_cons, List.append_assoc, List.length_append, Nat.add_assoc,
      adLoop_cons abi scInit had, adDecode, List.foldlM_cons, bind_assoc]
    congr
    funext s
    exact ih hads s

private theorem optionEncode_eq {α : Type} (field : Option α)
    (encode : α → AdBuffer → Except Errno AdBuffer) (ads : α → List (UInt8 × List UInt8))
    (h : ∀ value ∈ field, ∀ buff, encode value buff = adEncode (ads value) buff) (buff : AdBuffer) :
    optionEncode field encode buff = adEncode (field.elim [] ads) buff := by
  cases field with
  | none => rfl
  | some value => exact h value rfl buff

private theorem adEncode_singleton (ad : UInt8 × List UInt8) (buff : AdBuffer) :
    btDataEncode ad.1 ad.2 buff = adEncode [ad] buff := by
  simp [adEncode]

private theorem leScDataEncode_eq (sc : ScData) (buff : AdBuffer) :
    leScDataEncode sc buff = adEncode
      [(btDataLeScConfirmValue, sc.c.toList), (btDataLeScRandomValue, sc.r.toList)] buff := by
  simp [leScDataEncode, adEncode]

private theorem adEncode_append (ads ads' : List (UInt8 × List UInt8)) (buff : AdBuffer) :
    adEncode (ads ++ ads') buff = (adEncode ads buff >>= adEncode ads') :=
  List.foldlM_append ..

namespace LeOobDesc

variable {d : LeOobDesc} {addr : BtAddrLe} {leRole : UInt32}

private theorem length_adBytes_elim {α : Type} (field : Option α)
    (ads : α → List (UInt8 × List UInt8)) : (adBytes (field.elim [] ads)).length =
      field.elim 0 fun value => (adBytes (ads value)).length := by
  cases field <;> rfl

theorem length_adBytes_adStructures (d : LeOobDesc) (addr : BtAddrLe) (leRole : UInt32) :
    (adBytes (d.adStructures addr leRole ++ d.nameStructure)).length = d.payloadSize := by
  have haddr : btDataLen (addr.a.toList ++ [addr.type]) = 7 := by
    rw [btDataLen, List.length_append, addr.a.toList_length]
    rfl
  have h16 : ∀ v : List.Vector UInt8 16, btDataLen v.toList = 16 := by
    intro v
    rw [btDataLen, v.toList_length]
    rfl
  simp only [adStructures, nameStructure, payloadSize, adBytes_append, List.length_append,
    length_adBytes_elim, adBytes_cons, adBytes_nil, length_adStructure, List.length_nil, haddr, h16]
  rfl

theorem constructor_eq (hd : d.Accepted) (haddr : d.addr = some addr)
    (hrole : d.leRole = some leRole) {buff : Memory} (hbuff : d.payloadSize ≤ buff.length) :
    leOobRecPayloadConstructor (some d) buff buff.length =
      .ok (buff.write 0 (adBytes (d.adStructures addr leRole ++ d.nameStructure)),
        d.payloadSize) := by
  have hlt : ¬ leRole ≥ 4 := by
    obtain ⟨role, hrole', hlt⟩ := hd.leRole
    rw [hrole, Option.some.injEq] at hrole'
    rw [hrole']
    exact UInt32.not_le.mpr hlt
  have htk := optionEncode_eq d.tkValue _ (fun tk => [(btDataSmTkValue, tk.toList)])
    fun tk _ => adEncode_singleton (btDataSmTkValue, tk.toList)
  have hsc := optionEncode_eq d.leScData _ _ fun sc _ => leScDataEncode_eq sc
  have happearance := optionEncode_eq d.appearance _
    (fun appearance => [(btDataGapAppearance, le16 appearance)])
    fun appearance _ => adEncode_singleton (btDataGapAppearance, le16 appearance)
  have hflags := optionEncode_eq d.flags flagsEncode
    (fun flags => [(btDataFlags, [flags])]) fun flags hmem buff => by
      rw [flagsEncode, if_neg (hd.flags flags hmem), ← adEncode_singleton]
  have hname := optionEncode_eq d.localName _ (fun name => [(btDataNameComplete, name.val)])
    fun name _ => adEncode_singleton (btDataNameComplete, name.val)
  have hstages : leOobRecPayloadConstructor (some d) buff buff.length =
      (adEncode (d.adStructures addr leRole ++ d.nameStructure) ⟨[], buff.length⟩ >>=
        fun out => .ok (buff.write 0 out.bytes, buff.length - out.size)) := by
    simp only [leOobRecPayloadConstructor, haddr, hrole, bleDeviceAddrEncode, leRoleEncode,
      if_neg hlt, htk, hsc, happearance, hflags, hname, adStructures, nameStructure,
      adEncode_append, bind_assoc]
    simp only [adEncode, List.foldlM_cons, List.foldlM_nil, bind_assoc, pure_bind]
    rfl
  have hlen := d.length_adBytes_adStructures addr leRole
  rw [hstages, adEncode_of_le (by rw [hlen]; exact hbuff), hlen]
  show Except.ok _ = Except.ok _
  rw [List.nil_append, Nat.sub_sub_self hbuff]

end LeOobDesc

private theorem copyBytes_toList {n : Nat} (v : List.Vector UInt8 n) (rest : List UInt8) :
    copyBytes n (v.toList ++ rest) = v := by
  apply Subtype.ext
  show (v.toList ++ rest).takeD n 0 = v.val
  rw [List.takeD_eq_take _ (by rw [List.length_append, v.toList_length]; omega)]
  exact List.take_left' v.toList_length

private theorem le16_decode (v : UInt16) :
    v.toUInt8.toUInt16 ||| ((v >>> 8).toUInt8.toUInt16 <<< 8) = v := by
  have hlt := v.toNat_lt
  apply UInt16.toNat.inj
  simp only [UInt16.toNat_or, UInt8.toNat_toUInt16, UInt16.toNat_toUInt8, UInt16.toNat_shiftLeft,
    UInt16.toNat_shiftRight]
  have hhigh : v.toNat >>> 8 % 2 ^ 8 = v.toNat / 2 ^ 8 := by
    rw [Nat.shiftRight_eq_div_pow]
    omega
  have hshift : UInt16.toNat 8 % 16 = 8 := rfl
  have hword : (v.toNat / 2 ^ 8) <<< 8 % 2 ^ 16 = (v.toNat / 2 ^ 8) <<< 8 := by
    rw [Nat.shiftLeft_eq]
    omega
  rw [hshift, hhigh, hword, Nat.or_comm,
    ← Nat.shiftLeft_add_eq_or_of_lt (Nat.mod_lt _ (by decide)), Nat.shiftLeft_eq]
  omega

private theorem cString_val (name : CString) : cString name.val = name := by
  apply Subtype.ext
  show name.val.takeWhile _ = name.val
  rw [List.takeWhile_eq_self_iff]
  intro b hb
  exact decide_eq_true fun h => name.property (h ▸ hb)

private theorem LeOobState.allocate_of_le {s : LeOobState} {n : Nat} (h : s.len + n ≤ s.size) :
    s.allocate n = .ok { s with len := s.len + n } :=
  if_neg (by omega)

private theorem checkDataLen_self (n : Nat) : checkDataLen n n = .ok () := if_neg (not_not.mpr rfl)

section Stages

variable {abi : LeOobAbi} {scInit : ScData} {addr : Option BtAddrLe} {leRole : Option UInt32}
  {tk : Option (List.Vector UInt8 16)} {sc : Option ScData} {appearance : Option UInt16}
  {flags : Option UInt8} {len size : Nat}

private theorem adDecode_append (ads ads' : List (UInt8 × List UInt8)) (s : LeOobState) :
    adDecode abi scInit (ads ++ ads') s = (adDecode abi scInit ads s >>= adDecode abi scInit ads') :=
  List.foldlM_append ..

private theorem decode_addr (a : BtAddrLe) (h : len + 7 ≤ size) :
    LeOobState.decode abi scInit ⟨.empty, len, size⟩ btDataLeBtDeviceAddress
        (a.a.toList ++ [a.type]) (a.a.toList ++ [a.type]).length =
      .ok ⟨⟨some a, none, none, none, none, none, none⟩, len + 7, size⟩ := by
  have hlen : (a.a.toList ++ [a.type]).length = 7 := by
    rw [List.length_append, a.a.toList_length]
    rfl
  have htype : (a.a.toList ++ [a.type]).getD 6 0 = a.type := by
    rw [List.getD_append_right _ _ _ _ (by rw [a.a.toList_length]), a.a.toList_length]
    rfl
  rw [LeOobState.decode, if_pos rfl, LeOobState.allocate_of_le h, hlen]
  simp only [bleDeviceAddressDecode, checkDataLen_self, copyBytes_toList, htype, bind, Except.bind]
  rfl

private theorem decode_leRole (hsize : abi.leRoleSize = 1) {role : UInt32} (hrole : role < 4)
    (h : len + 1 ≤ size) :
    LeOobState.decode abi scInit ⟨⟨addr, none, none, none, none, none, none⟩, len, size⟩ btDataLeRole
        [role.toUInt8] [role.toUInt8].length =
      .ok ⟨⟨addr, some role, none, none, none, none, none⟩, len + 1, size⟩ := by
  have hvalue : role.toUInt8.toUInt32 = role := by
    have hlt : role.toNat < 4 := UInt32.lt_iff_toNat_lt.mp hrole
    apply UInt32.toNat.inj
    simp only [UInt8.toNat_toUInt32, UInt32.toNat_toUInt8]
    omega
  rw [LeOobState.decode, if_neg (by decide), if_pos rfl, hsize, LeOobState.allocate_of_le h]
  simp only [leRoleDecode, hsize, List.length_singleton, checkDataLen_self, bind, Except.bind,
    List.getD_cons_zero, hvalue]
  rfl

private theorem decode_tkValue (h : len + tk.elim 0 (fun _ => 16) ≤ size) :
    adDecode abi scInit (tk.elim [] fun tk => [(btDataSmTkValue, tk.toList)])
        ⟨⟨addr, leRole, none, none, none, none, none⟩, len, size⟩ =
      .ok ⟨⟨addr, leRole, none, tk, none, none, none⟩, len + tk.elim 0 (fun _ => 16), size⟩ := by
  cases tk with
  | none => rfl
  | some tk =>
    have hcopy := copyBytes_toList tk []
    rw [List.append_nil] at hcopy
    simp only [Option.elim_some, adDecode, List.foldlM_cons, List.foldlM_nil, bind_pure]
    rw [LeOobState.decode, if_neg (by decide), if_neg (by decide), if_pos rfl,
      LeOobState.allocate_of_le h, tk.toList_length]
    simp only [bytes16Decode, checkDataLen_self, hcopy, bind, Except.bind]
    rfl

private theorem decode_leScData (h : len + sc.elim 0 (fun _ => 32) ≤ size) :
    adDecode abi scInit (sc.elim [] fun sc =>
          [(btDataLeScConfirmValue, sc.c.toList), (btDataLeScRandomValue, sc.r.toList)])
        ⟨⟨addr, leRole, none, tk, none, none, none⟩, len, size⟩ =
      .ok ⟨⟨addr, leRole, sc, tk, none, none, none⟩, len + sc.elim 0 (fun _ => 32), size⟩ := by
  cases sc with
  | none => rfl
  | some sc =>
    have hc := copyBytes_toList sc.c []
    have hr := copyBytes_toList sc.r []
    rw [List.append_nil] at hc hr
    have hconfirm : LeOobState.decode abi scInit ⟨⟨addr, leRole, none, tk, none, none, none⟩, len, size⟩
        btDataLeScConfirmValue sc.c.toList sc.c.toList.length =
        .ok ⟨⟨addr, leRole, some ⟨scInit.r, sc.c⟩, tk, none, none, none⟩, len + 32, size⟩ := by
      rw [LeOobState.decode, if_neg (by decide), if_neg (by decide), if_neg (by decide), if_pos rfl,
        LeOobState.scAllocate, LeOobState.allocate_of_le h, sc.c.toList_length]
      simp only [bytes16Decode, checkDataLen_self, hc, bind, Except.bind]
      rfl
    simp only [Option.elim_some, adDecode, List.foldlM_cons, List.foldlM_nil, bind_pure, hconfirm]
    dsimp only [bind, Except.bind]
    rw [LeOobState.decode, if_neg (by decide), if_neg (by decide), if_neg (by decide),
      if_neg (by decide), if_pos rfl, LeOobState.scAllocate, sc.r.toList_length]
    simp only [bytes16Decode, checkDataLen_self, hr, bind, Except.bind]
    rfl

private theorem decode_appearance (h : len + appearance.elim 0 (fun _ => 2) ≤ size) :
    adDecode abi scInit (appearance.elim [] fun appearance =>
          [(btDataGapAppearance, le16 appearance)])
        ⟨⟨addr, leRole, sc, tk, none, none, none⟩, len, size⟩ =
      .ok ⟨⟨addr, leRole, sc, tk, appearance, none, none⟩,
        len + appearance.elim 0 (fun _ => 2), size⟩ := by
  cases appearance with
  | none => rfl
  | some appearance =>
    have hvalue := le16_decode appearance
    simp only [Option.elim_some, adDecode, List.foldlM_cons, List.foldlM_nil, bind_pure]
    rw [LeOobState.decode, if_neg (by decide), if_neg (by decide), if_neg (by decide),
      if_neg (by decide), if_neg (by decide), if_pos rfl, LeOobState.allocate_of_le h]
    simp only [appearanceDecode, le16, List.length_cons, List.length_nil, Nat.zero_add,
      Nat.reduceAdd, checkDataLen_self, List.getD_cons_zero, List.getD_cons_succ, hvalue, bind,
      Except.bind]
    rfl

private theorem decode_flags (h : len + flags.elim 0 (fun _ => 1) ≤ size) :
    adDecode abi scInit (flags.elim [] fun flags => [(btDataFlags, [flags])])
        ⟨⟨addr, leRole, sc, tk, appearance, none, none⟩, len, size⟩ =
      .ok ⟨⟨addr, leRole, sc, tk, appearance, flags, none⟩,
        len + flags.elim 0 (fun _ => 1), size⟩ := by
  cases flags with
  | none => rfl
  | some flags =>
    simp only [Option.elim_some, adDecode, List.foldlM_cons, List.foldlM_nil, bind_pure]
    rw [LeOobState.decode, if_neg (by decide), if_neg (by decide), if_neg (by decide),
      if_neg (by decide), if_neg (by decide), if_neg (by decide), if_pos rfl,
      LeOobState.allocate_of_le h]
    simp only [flagsDecode, List.length_singleton, checkDataLen_self, List.getD_cons_zero, bind,
      Except.bind]
    rfl

private theorem decode_localName (name : Option CString)
    (h : len + name.elim 0 (fun name => name.val.length + 1) ≤ size) :
    adDecode abi scInit (name.elim [] fun name => [(btDataNameComplete, name.val)])
        ⟨⟨addr, leRole, sc, tk, appearance, flags, none⟩, len, size⟩ =
      .ok ⟨⟨addr, leRole, sc, tk, appearance, flags, name⟩,
        len + name.elim 0 (fun name => name.val.length + 1), size⟩ := by
  cases name with
  | none => rfl
  | some name =>
    simp only [Option.elim_some, adDecode, List.foldlM_cons, List.foldlM_nil, bind_pure]
    rw [LeOobState.decode, if_neg (by decide), if_neg (by decide), if_neg (by decide),
      if_neg (by decide), if_neg (by decide), if_neg (by decide), if_neg (by decide),
      if_pos (Or.inr rfl), LeOobState.allocate_of_le h]
    simp only [cString_val, bind, Except.bind]
    rfl

end Stages

namespace LeOobDesc

variable {abi : LeOobAbi} {scInit : ScData} {d : LeOobDesc} {addr : BtAddrLe} {leRole : UInt32}

def prefixUsed (abi : LeOobAbi) (d : LeOobDesc) : Nat :=
  abi.recDescSize + 7 + abi.leRoleSize + d.tkValue.elim 0 (fun _ => 16) +
    d.leScData.elim 0 (fun _ => 32) + d.appearance.elim 0 (fun _ => 2) + d.flags.elim 0 (fun _ => 1)

theorem bytesUsed_eq (abi : LeOobAbi) (d : LeOobDesc) : d.bytesUsed abi =
    d.prefixUsed abi + d.localName.elim 0 (fun name => name.val.length + 1) := rfl

theorem adFits_adStructures {ad : UInt8 × List UInt8} (h : ad ∈ d.adStructures addr leRole) :
    AdFits ad := by
  have h16 : ∀ (type : UInt8) (v : List.Vector UInt8 16), AdFits (type, v.toList) := by
    intro type v
    unfold AdFits
    rw [v.toList_length]
    decide
  simp only [adStructures, List.mem_append, List.mem_cons, List.not_mem_nil, or_false] at h
  rcases h with ((((rfl | rfl) | h) | h) | h) | h
  · unfold AdFits
    rw [List.length_append, addr.a.toList_length]
    show 1 ≤ 7 ∧ 7 ≤ 254
    decide
  · show 1 ≤ 1 ∧ 1 ≤ 254
    decide
  · cases htk : d.tkValue with
    | none => simp [htk] at h
    | some tk =>
      simp only [htk, Option.elim_some, List.mem_singleton] at h
      rw [h]
      exact h16 _ tk
  · cases hsc : d.leScData with
    | none => simp [hsc] at h
    | some sc =>
      simp only [hsc, Option.elim_some, List.mem_cons, List.not_mem_nil, or_false] at h
      rcases h with rfl | rfl
      · exact h16 _ sc.c
      · exact h16 _ sc.r
  · cases happearance : d.appearance with
    | none => simp [happearance] at h
    | some appearance =>
      simp only [happearance, Option.elim_some, List.mem_singleton] at h
      rw [h]
      show 1 ≤ 2 ∧ 2 ≤ 254
      decide
  · cases hflags : d.flags with
    | none => simp [hflags] at h
    | some flags =>
      simp only [hflags, Option.elim_some, List.mem_singleton] at h
      rw [h]
      show 1 ≤ 1 ∧ 1 ≤ 254
      decide

theorem adDecode_adStructures (hsize : abi.leRoleSize = 1) (haddr : d.addr = some addr)
    (hrole : d.leRole = some leRole) (hlt : leRole < 4) {size : Nat}
    (h : d.prefixUsed abi ≤ size) :
    adDecode abi scInit (d.adStructures addr leRole) ⟨.empty, abi.recDescSize, size⟩ =
      .ok ⟨{ d with localName := none }, d.prefixUsed abi, size⟩ := by
  unfold prefixUsed at h ⊢
  rw [hsize] at h ⊢
  have hfixed : adDecode abi scInit [(btDataLeBtDeviceAddress, addr.a.toList ++ [addr.type]),
      (btDataLeRole, [leRole.toUInt8])] ⟨.empty, abi.recDescSize, size⟩ =
      .ok ⟨⟨some addr, some leRole, none, none, none, none, none⟩, abi.recDescSize + 7 + 1, size⟩ := by
    simp only [adDecode, List.foldlM_cons, List.foldlM_nil, bind_pure]
    rw [decode_addr addr (by omega)]
    dsimp only [bind, Except.bind]
    rw [decode_leRole hsize hlt (by omega)]
  simp only [adStructures, adDecode_append]
  rw [hfixed]
  dsimp only [bind, Except.bind]
  rw [decode_tkValue (by omega)]
  dsimp only
  rw [decode_leScData (by omega)]
  dsimp only
  rw [decode_appearance (by omega)]
  dsimp only
  rw [decode_flags (by omega), haddr, hrole]

variable {resultBufLen : Nat}

theorem parse_adStructures (hsize : abi.leRoleSize = 1) (haddr : d.addr = some addr)
    (hrole : d.leRole = some leRole) (hlt : leRole < 4)
    (h : d.prefixUsed abi ≤ resultBufLen % 2 ^ abi.netBufBits) (rest : Memory) (left : Nat) :
    leOobRecPayloadParse abi scInit (some (adBytes (d.adStructures addr leRole) ++ rest))
        ((adBytes (d.adStructures addr leRole)).length + left) resultBufLen =
      (adLoop abi scInit rest left ⟨{ d with localName := none }, d.prefixUsed abi,
          resultBufLen % 2 ^ abi.netBufBits⟩ >>=
        fun s => .ok (s.desc, subU32 resultBufLen (s.size - s.len))) := by
  have hroom : abi.recDescSize ≤ resultBufLen % 2 ^ abi.netBufBits := by
    unfold prefixUsed at h
    omega
  unfold leOobRecPayloadParse
  dsimp only
  rw [LeOobState.allocate_of_le (by dsimp only; omega), Nat.zero_add]
  dsimp only [bind, Except.bind]
  rw [adLoop_adBytes abi scInit (fun ad => adFits_adStructures),
    adDecode_adStructures hsize haddr hrole hlt h]
  rfl

variable {buff : Memory}

theorem roundTrips_iff_parse (hd : d.Accepted) (haddr : d.addr = some addr)
    (hrole : d.leRole = some leRole) (hbuff : d.payloadSize ≤ buff.length) :
    d.RoundTrips abi scInit buff resultBufLen ↔
      ∃ resultLen, leOobRecPayloadParse abi scInit
        (some (adBytes (d.adStructures addr leRole) ++
          (adBytes d.nameStructure ++ buff.drop d.payloadSize)))
        ((adBytes (d.adStructures addr leRole)).length + (adBytes d.nameStructure).length)
        resultBufLen = .ok (d, resultLen) := by
  have hlen := d.length_adBytes_adStructures addr leRole
  have hmem : buff.write 0 (adBytes (d.adStructures addr leRole ++ d.nameStructure)) =
      adBytes (d.adStructures addr leRole) ++
        (adBytes d.nameStructure ++ buff.drop d.payloadSize) := by
    rw [Memory.write, hlen, List.take_zero, List.nil_append, Nat.zero_add, adBytes_append,
      List.append_assoc]
  rw [adBytes_append, List.length_append] at hlen
  unfold RoundTrips
  rw [constructor_eq hd haddr hrole hbuff, hmem, hlen]
  constructor
  · rintro ⟨mem, n, resultLen, h, hparse⟩
    cases h
    exact ⟨resultLen, hparse⟩
  · rintro ⟨resultLen, hparse⟩
    exact ⟨_, _, resultLen, rfl, hparse⟩

theorem Accepted.roundTrips (hd : d.Accepted) (hsize : abi.leRoleSize = 1)
    (hname : ∀ name ∈ d.localName, name.val.length ≤ 254) (hbuff : d.payloadSize ≤ buff.length)
    (hres : d.bytesUsed abi ≤ resultBufLen % 2 ^ abi.netBufBits) :
    d.RoundTrips abi scInit buff resultBufLen := by
  obtain ⟨addr, haddr⟩ := hd.addr
  obtain ⟨leRole, hrole, hlt⟩ := hd.leRole
  rw [bytesUsed_eq] at hres
  have hfits : ∀ ad ∈ d.nameStructure, AdFits ad := by
    intro ad had
    unfold nameStructure at had
    cases hlocal : d.localName with
    | none => simp [hlocal] at had
    | some name =>
      simp only [hlocal, Option.elim_some, List.mem_singleton] at had
      rw [had]
      exact ⟨List.length_pos_iff.mpr (hd.localName name hlocal), hname name hlocal⟩
  rw [roundTrips_iff_parse hd haddr hrole hbuff,
    parse_adStructures hsize haddr hrole hlt (by omega)]
  have hloop := adLoop_adBytes abi scInit hfits (buff.drop d.payloadSize) 0
    ⟨{ d with localName := none }, d.prefixUsed abi, resultBufLen % 2 ^ abi.netBufBits⟩
  rw [Nat.add_zero, nameStructure, decode_localName d.localName hres] at hloop
  rw [nameStructure, hloop]
  dsimp only [bind, Except.bind]
  rw [adLoop, dif_pos rfl]
  exact ⟨_, rfl⟩

theorem allocate_eq_ok {s s' : LeOobState} {n : Nat} (h : s.allocate n = .ok s') :
    n ≤ s.size - s.len ∧ s' = { s with len := s.len + n } := by
  unfold LeOobState.allocate at h
  split at h
  · cases h
  next hroom =>
    cases h
    exact ⟨Nat.not_lt.mp hroom, rfl⟩

theorem allocate_desc {s s' : LeOobState} {n : Nat} (h : s.allocate n = .ok s') :
    s'.desc = s.desc := by
  rw [(allocate_eq_ok h).2]

theorem parse_eq_ok {payloadBuf : Memory} {payloadLen resultBufLen resultLen : Nat} {d' : LeOobDesc}
    (h : leOobRecPayloadParse abi scInit (some payloadBuf) payloadLen resultBufLen =
      .ok (d', resultLen)) :
    ∃ s', abi.recDescSize ≤ resultBufLen % 2 ^ abi.netBufBits ∧
      adLoop abi scInit payloadBuf payloadLen
        ⟨.empty, abi.recDescSize, resultBufLen % 2 ^ abi.netBufBits⟩ = .ok s' ∧ s'.desc = d' := by
  simp only [leOobRecPayloadParse, bind_eq_ok, pure_eq_ok, Prod.mk.injEq] at h
  obtain ⟨s, halloc, s', hloop, hdesc, -⟩ := h
  obtain ⟨hroom, rfl⟩ := allocate_eq_ok halloc
  rw [Nat.zero_add] at hloop
  exact ⟨s', hroom, hloop, hdesc⟩

theorem not_roundTrips_of_leRoleSize (hd : d.Accepted) (hsize : abi.leRoleSize ≠ 1)
    (hbuff : d.payloadSize ≤ buff.length) :
    ¬ d.RoundTrips abi scInit buff resultBufLen := by
  obtain ⟨addr, haddr⟩ := hd.addr
  obtain ⟨leRole, hrole, hlt⟩ := hd.leRole
  rw [roundTrips_iff_parse hd haddr hrole hbuff]
  rintro ⟨resultLen, h⟩
  obtain ⟨s', -, hloop, -⟩ := parse_eq_ok h
  rw [adLoop_adBytes abi scInit (fun ad => adFits_adStructures), bind_eq_ok] at hloop
  obtain ⟨s₁, hdecode, -⟩ := hloop
  simp only [adStructures, adDecode, List.append_assoc, List.cons_append, List.foldlM_cons,
    bind_eq_ok] at hdecode
  obtain ⟨s₂, -, s₃, hdecode, -⟩ := hdecode
  rw [LeOobState.decode, if_neg (by decide), if_pos rfl] at hdecode
  simp only [leRoleDecode, bind_eq_ok] at hdecode
  obtain ⟨s₄, -, role, ⟨u, hcheck, -⟩, -⟩ := hdecode
  rw [checkDataLen, List.length_singleton, if_pos (Ne.symm hsize)] at hcheck
  cases hcheck

theorem scAllocate_desc {s s' : LeOobState} {sc : ScData}
    (h : s.scAllocate scInit = .ok (sc, s')) : s'.desc = s.desc := by
  unfold LeOobState.scAllocate at h
  split at h
  · cases h
    rfl
  · rw [bind_eq_ok] at h
    obtain ⟨s₁, halloc, h⟩ := h
    cases h
    exact allocate_desc halloc

private theorem field_localName {α : Type} {s s' : LeOobState} {n : Nat} {x : Except Errno α}
    {set : LeOobState → α → LeOobState}
    (h : (s.allocate n >>= fun s => x >>= fun value => pure (set s value)) = .ok s')
    (hset : ∀ s value, (set s value).desc.localName = s.desc.localName) :
    s'.desc.localName = s.desc.localName := by
  simp only [bind_eq_ok, pure_eq_ok] at h
  obtain ⟨s₁, halloc, value, -, rfl⟩ := h
  rw [hset, allocate_desc halloc]

theorem decode_localName_eq {s s' : LeOobState} {type : UInt8} {data : List UInt8} {dataLen : Nat}
    (h : s.decode abi scInit type data dataLen = .ok s') :
    s'.desc.localName = s.desc.localName ∨ s'.desc.localName = some (cString data) := by
  unfold LeOobState.decode at h
  split at h
  · exact Or.inl (field_localName h fun _ _ => rfl)
  split at h
  · exact Or.inl (field_localName h fun _ _ => rfl)
  split at h
  · exact Or.inl (field_localName h fun _ _ => rfl)
  split at h
  · simp only [bind_eq_ok, pure_eq_ok, Prod.exists] at h
    obtain ⟨sc, s₁, halloc, value, -, rfl⟩ := h
    left
    show s₁.desc.localName = _
    rw [scAllocate_desc halloc]
  split at h
  · simp only [bind_eq_ok, pure_eq_ok, Prod.exists] at h
    obtain ⟨sc, s₁, halloc, value, -, rfl⟩ := h
    left
    show s₁.desc.localName = _
    rw [scAllocate_desc halloc]
  split at h
  · exact Or.inl (field_localName h fun _ _ => rfl)
  split at h
  · exact Or.inl (field_localName h fun _ _ => rfl)
  split at h
  · simp only [bind_eq_ok, pure_eq_ok] at h
    obtain ⟨s₁, -, rfl⟩ := h
    exact Or.inr rfl
  · cases h
    exact Or.inl rfl

/-- What every decoded structure preserves, the loop preserves. -/
theorem adLoop_preserves {P : LeOobState → Prop}
    (hstep : ∀ s s' type (data : List UInt8) dataLen, data.length ≤ dataLen → dataLen ≤ 255 → P s →
      s.decode abi scInit type data dataLen = .ok s' → P s')
    {mem : Memory} {left : Nat} {s s' : LeOobState} (hs : P s)
    (h : adLoop abi scInit mem left s = .ok s') : P s' := by
  induction left using Nat.strong_induction_on generalizing mem s with
  | _ left ih =>
    rw [adLoop] at h
    split at h
    · cases h
      exact hs
    next hleft =>
      dsimp only at h
      split at h
      · cases h
      · rw [bind_eq_ok] at h
        obtain ⟨s₁, hdecode, h⟩ := h
        have hbyte := UInt8.toNat_lt (mem.getD 0 0 - 1)
        have hs₁ := hstep _ _ _ _ _ (List.length_take_le ..) (by omega) hs hdecode
        exact ih _ (by omega) hs₁ h

theorem adLoop_localName {mem : Memory} {left : Nat} {s s' : LeOobState}
    (hs : ∀ name ∈ s.desc.localName, name.val.length ≤ 255)
    (h : adLoop abi scInit mem left s = .ok s') :
    ∀ name ∈ s'.desc.localName, name.val.length ≤ 255 := by
  refine @adLoop_preserves abi scInit
    (fun s => ∀ name ∈ s.desc.localName, name.val.length ≤ 255) ?_ _ _ _ _ hs h
  intro s s' type data dataLen hdata hle hs hdecode
  rcases decode_localName_eq hdecode with hname | hname
  · rwa [hname]
  · intro name hmem
    rw [hname, Option.mem_some_iff] at hmem
    subst hmem
    have hstring := (List.takeWhile_sublist (l := data) (p := fun b => decide (b ≠ 0))).length_le
    exact hstring.trans (hdata.trans hle)

def heldBytes (abi : LeOobAbi) (d : LeOobDesc) : Nat :=
  abi.recDescSize + d.addr.elim 0 (fun _ => 7) + d.leRole.elim 0 (fun _ => abi.leRoleSize) +
    d.tkValue.elim 0 (fun _ => 16) + d.leScData.elim 0 (fun _ => 32) +
    d.appearance.elim 0 (fun _ => 2) + d.flags.elim 0 (fun _ => 1) +
    d.localName.elim 0 (fun name => name.val.length + 1)

theorem bytesUsed_eq_held (haddr : d.addr = some addr) (hrole : d.leRole = some leRole) :
    d.bytesUsed abi = d.heldBytes abi := by
  rw [bytesUsed, heldBytes, haddr, hrole]
  rfl

structure Held (abi : LeOobAbi) (size : Nat) (s : LeOobState) : Prop where
  used : s.desc.heldBytes abi ≤ s.len
  room : s.len ≤ s.size
  size_eq : s.size = size

section Held

variable {size n : Nat} {s s' : LeOobState}

theorem Held.allocate (h : Held abi size s) (halloc : s.allocate n = .ok s') :
    s'.desc = s.desc ∧ s.desc.heldBytes abi + n ≤ s'.len ∧ s'.len ≤ s'.size ∧ s'.size = size := by
  obtain ⟨hroom, rfl⟩ := allocate_eq_ok halloc
  have hused := h.used
  have hle := h.room
  exact ⟨rfl, by dsimp only; omega, by dsimp only; omega, h.size_eq⟩

private theorem Held.field {α : Type} {x : Except Errno α} (hs : Held abi size s)
    (set : LeOobDesc → α → LeOobDesc)
    (h : (s.allocate n >>= fun s => x >>= fun value =>
      pure { s with desc := set s.desc value }) = .ok s')
    (hset : ∀ d value, (set d value).heldBytes abi ≤ d.heldBytes abi + n) : Held abi size s' := by
  simp only [bind_eq_ok, pure_eq_ok] at h
  obtain ⟨s₁, halloc, value, -, rfl⟩ := h
  obtain ⟨hdesc, hused, hroom, hsize⟩ := hs.allocate halloc
  refine ⟨?_, hroom, hsize⟩
  have hle := hset s₁.desc value
  rw [hdesc] at hle ⊢
  exact hle.trans hused

/-- The confirm value and the random number share one structure. -/
private theorem Held.scField {α : Type} {x : Except Errno α} (hs : Held abi size s)
    (set : ScData → α → ScData)
    (h : (s.scAllocate scInit >>= fun p => x >>= fun value =>
      pure { p.2 with desc.leScData := some (set p.1 value) }) = .ok s') : Held abi size s' := by
  simp only [bind_eq_ok, pure_eq_ok, Prod.exists] at h
  obtain ⟨sc, s₁, halloc, value, -, rfl⟩ := h
  unfold LeOobState.scAllocate at halloc
  split at halloc
  next sc' hsome =>
    cases halloc
    refine ⟨?_, hs.room, hs.size_eq⟩
    have hused := hs.used
    simp only [heldBytes, hsome, Option.elim_some] at hused ⊢
    exact hused
  next hnone =>
    rw [bind_eq_ok] at halloc
    obtain ⟨s₂, halloc, heq⟩ := halloc
    cases heq
    obtain ⟨hdesc, hused, hroom, hsize⟩ := hs.allocate halloc
    refine ⟨?_, hroom, hsize⟩
    simp only [heldBytes, hdesc, hnone, Option.elim_some, Option.elim_none] at hused ⊢
    omega

theorem Held.decode (hs : Held abi size s) {type : UInt8} {data : List UInt8} {dataLen : Nat}
    (hdata : data.length ≤ dataLen) (h : s.decode abi scInit type data dataLen = .ok s') :
    Held abi size s' := by
  unfold LeOobState.decode at h
  split at h
  · exact hs.field (fun d v => { d with addr := some v }) h fun _ _ => by
      simp only [heldBytes, Option.elim_some]
      omega
  split at h
  · exact hs.field (fun d v => { d with leRole := some v }) h fun _ _ => by
      simp only [heldBytes, Option.elim_some]
      omega
  split at h
  · exact hs.field (fun d v => { d with tkValue := some v }) h fun _ _ => by
      simp only [heldBytes, Option.elim_some]
      omega
  split at h
  · exact hs.scField (fun sc c => { sc with c := c }) h
  split at h
  · exact hs.scField (fun sc r => { sc with r := r }) h
  split at h
  · exact hs.field (fun d v => { d with appearance := some v }) h fun _ _ => by
      simp only [heldBytes, Option.elim_some]
      omega
  split at h
  · exact hs.field (fun d v => { d with flags := some v }) h fun _ _ => by
      simp only [heldBytes, Option.elim_some]
      omega
  split at h
  · simp only [bind_eq_ok, pure_eq_ok] at h
    obtain ⟨s₁, halloc, rfl⟩ := h
    obtain ⟨hdesc, hused, hroom, hsize⟩ := hs.allocate halloc
    refine ⟨?_, hroom, hsize⟩
    have hstring : (cString data).val.length ≤ data.length :=
      (List.takeWhile_sublist _).length_le
    simp only [heldBytes, hdesc, Option.elim_some] at hused ⊢
    omega
  · cases h
    exact hs

theorem adLoop_held {mem : Memory} {left : Nat} (hs : Held abi size s)
    (h : adLoop abi scInit mem left s = .ok s') : Held abi size s' :=
  adLoop_preserves (fun _ _ _ _ _ hdata _ hs hdecode => hs.decode hdata hdecode) hs h

end Held

theorem not_roundTrips_of_lt {name : CString} (hd : d.Accepted) (hname : d.localName = some name)
    (hlen : 255 < name.val.length) (hbuff : d.payloadSize ≤ buff.length) :
    ¬ d.RoundTrips abi scInit buff resultBufLen := by
  obtain ⟨addr, haddr⟩ := hd.addr
  obtain ⟨leRole, hrole, -⟩ := hd.leRole
  rw [roundTrips_iff_parse hd haddr hrole hbuff]
  rintro ⟨resultLen, h⟩
  obtain ⟨s', -, hloop, rfl⟩ := parse_eq_ok h
  have hle := adLoop_localName (fun name hmem => by cases hmem) hloop name hname
  omega

/-- A result buffer whose size is cut to less than the descriptor takes runs out of room. -/
theorem not_roundTrips_of_netBuf_lt (hd : d.Accepted) (hbuff : d.payloadSize ≤ buff.length)
    (hres : resultBufLen % 2 ^ abi.netBufBits < d.bytesUsed abi) :
    ¬ d.RoundTrips abi scInit buff resultBufLen := by
  obtain ⟨addr, haddr⟩ := hd.addr
  obtain ⟨leRole, hrole, -⟩ := hd.leRole
  rw [roundTrips_iff_parse hd haddr hrole hbuff]
  rintro ⟨resultLen, h⟩
  obtain ⟨s', hroom, hloop, rfl⟩ := parse_eq_ok h
  have hstart : Held abi (resultBufLen % 2 ^ abi.netBufBits)
      ⟨.empty, abi.recDescSize, resultBufLen % 2 ^ abi.netBufBits⟩ := ⟨Nat.le_refl _, hroom, rfl⟩
  have hheld := adLoop_held hstart hloop
  rw [bytesUsed_eq_held haddr hrole] at hres
  have hused := hheld.used
  have hfits := hheld.room
  rw [hheld.size_eq] at hfits
  omega

def longName : CString := ⟨List.replicate 255 0x41, by decide⟩

private theorem decode_unknown (s : LeOobState) (data : List UInt8) (dataLen : Nat) :
    s.decode abi scInit 0x41 data dataLen = .ok s := by
  unfold LeOobState.decode
  rw [if_neg (by decide), if_neg (by decide), if_neg (by decide), if_neg (by decide),
    if_neg (by decide), if_neg (by decide), if_neg (by decide), if_neg (by decide)]

/-- After the length byte 0 the parser goes on at the type of the name, as if it were the length of
another structure, and at last finds a length that does not fit. -/
theorem adLoop_longName (behind : Memory) (s s' : LeOobState) :
    adLoop abi scInit (btDataNameComplete :: longName.val ++ behind) 256 s ≠ .ok s' := by
  let ads : List (UInt8 × List UInt8) :=
    [(0x41, .replicate 8 0x41), (0x41, .replicate 64 0x41), (0x41, .replicate 64 0x41),
      (0x41, .replicate 64 0x41)]
  have hfits : ∀ ad ∈ ads, AdFits ad := by
    intro ad had
    simp only [ads, List.mem_cons, List.not_mem_nil, or_false] at had
    rcases had with rfl | rfl | rfl | rfl <;> exact ⟨by decide, by decide⟩
  have hbytes : btDataNameComplete :: longName.val = adBytes ads ++ List.replicate 48 0x41 := by
    decide +kernel
  have hlen : 256 = (adBytes ads).length + 48 := by decide +kernel
  have hdecode : adDecode abi scInit ads s = .ok s := by
    simp only [ads, adDecode, List.foldlM_cons, List.foldlM_nil, decode_unknown, bind, Except.bind]
    rfl
  rw [hbytes, List.append_assoc, hlen, adLoop_adBytes abi scInit hfits, hdecode]
  dsimp only [bind, Except.bind]
  rw [adLoop, dif_neg (by decide)]
  dsimp only
  have hhead : (List.replicate 48 0x41 ++ behind).getD 0 0 = 0x41 := rfl
  have hlong : 48 - 1 < ((List.replicate 48 0x41 ++ behind).getD 0 0).toNat := by
    rw [hhead]
    decide
  rw [if_pos (Or.inr hlong)]
  exact fun h => by cases h

theorem not_roundTrips_longName (hd : d.Accepted) (hname : d.localName = some longName)
    (hbuff : d.payloadSize ≤ buff.length) :
    ¬ d.RoundTrips abi scInit buff resultBufLen := by
  obtain ⟨addr, haddr⟩ := hd.addr
  obtain ⟨leRole, hrole, -⟩ := hd.leRole
  rw [roundTrips_iff_parse hd haddr hrole hbuff]
  rintro ⟨resultLen, h⟩
  obtain ⟨s', -, hloop, -⟩ := parse_eq_ok h
  rw [adLoop_adBytes abi scInit (fun ad => adFits_adStructures), bind_eq_ok] at hloop
  obtain ⟨s₁, -, hloop⟩ := hloop
  have hbytes : adBytes d.nameStructure = 0 :: btDataNameComplete :: longName.val := by
    rw [nameStructure, hname]
    decide +kernel
  have hlen : (0 :: btDataNameComplete :: longName.val).length = 257 := by decide +kernel
  rw [hbytes, hlen, adLoop, dif_neg (by decide)] at hloop
  simp only [List.cons_append, List.getD_cons_zero] at hloop
  rw [if_neg (by decide), bind_eq_ok] at hloop
  obtain ⟨s₂, -, hloop⟩ := hloop
  exact adLoop_longName _ s₂ s' hloop

section SameLength

variable {d' : LeOobDesc}

theorem SameLength.refl (d : LeOobDesc) : d.SameLength d := ⟨rfl, rfl⟩

theorem SameLength.localName_eq (h : d.SameLength d') {name' : CString}
    (hname : d'.localName = some name') :
    ∃ name, d.localName = some name ∧ name.val.length = name'.val.length := by
  have hmap := h.2
  rw [hname, Option.map_some, eq_comm, Option.map_eq_some_iff] at hmap
  exact hmap

theorem SameLength.accepted (h : d.SameLength d') (hd : d.Accepted) : d'.Accepted := by
  rw [h.1]
  refine ⟨hd.addr, hd.leRole, hd.flags, ?_⟩
  intro name' hname
  obtain ⟨name, hlocal, hlen⟩ := h.localName_eq hname
  have hpos := List.length_pos_iff.mpr (hd.localName name hlocal)
  exact List.length_pos_iff.mp (by omega)

private theorem elim_length_eq {o o' : Option CString}
    (h : o'.map (·.val.length) = o.map (·.val.length)) (f : Nat → Nat) :
    o'.elim 0 (fun name => f name.val.length) = o.elim 0 (fun name => f name.val.length) := by
  cases o with
  | none =>
    rw [Option.map_none, Option.map_eq_none_iff] at h
    rw [h]
  | some name =>
    rw [Option.map_some, Option.map_eq_some_iff] at h
    obtain ⟨name', rfl, hlen⟩ := h
    simp only [Option.elim_some, hlen]

theorem SameLength.payloadSize_eq (h : d.SameLength d') : d'.payloadSize = d.payloadSize := by
  have hname := elim_length_eq h.2 fun n => n % 2 ^ 8 + 2
  rw [h.1]
  unfold payloadSize
  exact congrArg _ hname

theorem SameLength.bytesUsed_eq (h : d.SameLength d') (abi : LeOobAbi) :
    d'.bytesUsed abi = d.bytesUsed abi := by
  have hname := elim_length_eq h.2 fun n => n + 1
  rw [h.1]
  unfold bytesUsed
  exact congrArg _ hname

end SameLength

/-- With the other fields and the length of the local name given, all names of that length come back
exactly when the length is at most 254, an enumeration is a byte, and the size of the result buffer is
not cut below what the descriptor takes. -/
theorem leOob_roundTrips_iff (abi : LeOobAbi) (scInit : ScData) {d : LeOobDesc} (hd : d.Accepted)
    {buff : Memory} (hbuff : d.payloadSize ≤ buff.length) {resultBufLen : Nat} :
    (∀ d', d.SameLength d' → d'.RoundTrips abi scInit buff resultBufLen) ↔
      abi.leRoleSize = 1 ∧ (∀ name ∈ d.localName, name.val.length ≤ 254) ∧
        d.bytesUsed abi ≤ resultBufLen % 2 ^ abi.netBufBits := by
  constructor
  · intro h
    have hself := h d (.refl d)
    refine ⟨?_, ?_, ?_⟩
    · by_contra hsize
      exact not_roundTrips_of_leRoleSize hd hsize hbuff hself
    · intro name hname
      by_contra hlen
      rcases Nat.lt_or_ge 255 name.val.length with hlt | hle
      · exact not_roundTrips_of_lt hd hname hlt hbuff hself
      · -- a name of 255 characters may come back by accident, but not all of them do
        have hlong : longName.val.length = name.val.length := by
          rw [longName, List.length_replicate]
          omega
        have hsame : d.SameLength { d with localName := some longName } := by
          refine ⟨rfl, ?_⟩
          rw [hname, Option.map_some, Option.map_some, hlong]
        refine not_roundTrips_longName (hsame.accepted hd) rfl ?_ (h _ hsame)
        rw [hsame.payloadSize_eq]
        exact hbuff
    · by_contra hcut
      exact not_roundTrips_of_netBuf_lt hd hbuff (by omega) hself
  · rintro ⟨hsize, hname, hcut⟩ d' hsame
    apply (hsame.accepted hd).roundTrips hsize
    · intro name' hname'
      obtain ⟨name, hlocal, hlen⟩ := hsame.localName_eq hname'
      rw [← hlen]
      exact hname name hlocal
    · rw [hsame.payloadSize_eq]
      exact hbuff
    · rw [hsame.bytesUsed_eq]
      exact hcut

def armLeOobAbi : LeOobAbi := ⟨28, 1, 16⟩

def peripheral (name : CString) : LeOobDesc where
  addr := some ⟨1, ⟨[0x01, 0x02, 0x03, 0x04, 0x05, 0xC6], rfl⟩⟩
  leRole := some 0
  leScData := none
  tkValue := none
  appearance := some 0x0340
  flags := some 0x06
  localName := some name

theorem peripheral_accepted {name : CString} (h : name.val ≠ []) : (peripheral name).Accepted := by
  refine ⟨⟨_, rfl⟩, ⟨_, rfl, by decide⟩, ?_, ?_⟩
  · intro flags hflags
    cases hflags
    decide
  · intro name' hname
    cases hname
    exact h

def zeroScData : ScData := ⟨.replicate 16 0, .replicate 16 0⟩

theorem shortName_roundTrips :
    (peripheral ⟨[0x6E, 0x52, 0x46], by decide⟩).RoundTrips armLeOobAbi zeroScData
      (List.replicate 64 0) 256 := by
  refine (leOob_roundTrips_iff armLeOobAbi zeroScData (peripheral_accepted (by decide))
    (by decide)).mpr ⟨rfl, ?_, by decide⟩ _ (.refl _)
  intro name hname
  cases hname
  decide

/-- The parser does not accept a name of 255 times the letter A. -/
theorem longName_not_roundTrips : (peripheral longName).Accepted ∧
    (peripheral longName).payloadSize ≤ (List.replicate 512 (0 : UInt8)).length ∧
    (peripheral longName).bytesUsed armLeOobAbi ≤ 1024 ∧
    ¬ (peripheral longName).RoundTrips armLeOobAbi zeroScData (List.replicate 512 0) 1024 := by
  have haccepted : (peripheral longName).Accepted := peripheral_accepted (by decide)
  have hsize : (peripheral longName).payloadSize ≤ (List.replicate 512 (0 : UInt8)).length := by
    decide +kernel
  exact ⟨haccepted, hsize, by decide +kernel, not_roundTrips_longName haccepted rfl hsize⟩

end LeOobDesc

end SdkNrf.Ndef
