/-
A password fits the record that was made for it. The record is text, so it has to be read back as
it was written: cut at its dollar signs, with salt and hash in base64, which has no dollar sign
and can be undone. What the hash is plays no part; only its length does.
-/
import Zonecast.Password.Record
import Zonecast.Proofs.Pieces

namespace Zonecast

namespace Text

/-! ### Base64 -/

namespace Base64

theorem valueOf?_charOf (value : Nat) (small : value < 64) :
    valueOf? (charOf value) = some value := by
  have all : ∀ value : Fin 64, valueOf? (charOf value) = some value.val := by decide
  exact all ⟨value, small⟩

/-- A byte is the one of its value. -/
theorem ofNat_eq (byte : UInt8) (value : Nat) (same : value = byte.toNat) :
    UInt8.ofNat value = byte := by
  rw [same, UInt8.ofNat_toNat]

/-- Decoding gives back the bytes that were encoded. -/
theorem decode?_encode (bytes : List UInt8) : decode? (encode bytes) = some bytes := by
  induction bytes using encode.induct with
  | case1 => rfl
  | case2 a =>
    have := a.toNat_lt
    rw [encode, decode?, valueOf?_charOf _ (by omega), valueOf?_charOf _ (by omega)]
    dsimp only [Option.bind_eq_bind, Option.bind_some]
    rw [if_pos (by omega), ofNat_eq a _ (by omega)]
  | case3 a b =>
    have := a.toNat_lt
    have := b.toNat_lt
    rw [encode, decode?, valueOf?_charOf _ (by omega), valueOf?_charOf _ (by omega),
      valueOf?_charOf _ (by omega)]
    dsimp only [Option.bind_eq_bind, Option.bind_some]
    rw [if_pos (by omega), ofNat_eq a _ (by omega), ofNat_eq b _ (by omega)]
  | case4 a b c rest inductionHypothesis =>
    have := a.toNat_lt
    have := b.toNat_lt
    have := c.toNat_lt
    rw [encode, decode?, valueOf?_charOf _ (by omega), valueOf?_charOf _ (by omega),
      valueOf?_charOf _ (by omega), valueOf?_charOf _ (by omega), inductionHypothesis]
    dsimp only [Option.bind_eq_bind, Option.bind_some]
    rw [ofNat_eq a _ (by omega), ofNat_eq b _ (by omega), ofNat_eq c _ (by omega)]
    rfl

/-- Three bytes are four characters. -/
theorem length_encode (bytes : List UInt8) :
    (encode bytes).length = (4 * bytes.length + 2) / 3 := by
  induction bytes using encode.induct with
  | case1 => rfl
  | case2 a => simp [encode]
  | case3 a b => simp [encode]
  | case4 a b c rest inductionHypothesis =>
    rw [encode, List.length_cons, List.length_cons, List.length_cons, List.length_cons,
      List.length_cons, List.length_cons, List.length_cons, inductionHypothesis]
    omega

/-- Whatever holds of the 64 characters holds of every character that is written. -/
theorem forall_mem_encode (holds : Char → Prop) (all : ∀ value < 64, holds (charOf value))
    (bytes : List UInt8) : ∀ c ∈ encode bytes, holds c := by
  induction bytes using encode.induct with
  | case1 => exact List.forall_mem_nil _
  | case2 a =>
    have := a.toNat_lt
    rw [encode, List.forall_mem_cons, List.forall_mem_singleton]
    exact ⟨all _ (by omega), all _ (by omega)⟩
  | case3 a b =>
    have := a.toNat_lt
    have := b.toNat_lt
    rw [encode, List.forall_mem_cons, List.forall_mem_cons, List.forall_mem_singleton]
    exact ⟨all _ (by omega), all _ (by omega), all _ (by omega)⟩
  | case4 a b c rest inductionHypothesis =>
    have := a.toNat_lt
    have := b.toNat_lt
    have := c.toNat_lt
    rw [encode, List.forall_mem_cons, List.forall_mem_cons, List.forall_mem_cons,
      List.forall_mem_cons]
    exact ⟨all _ (by omega), all _ (by omega), all _ (by omega), all _ (by omega),
      inductionHypothesis⟩

end Base64

end Text

namespace Password

open Text

/-! ### Lengths -/

namespace Blake2b

theorem size_compress (state : Array UInt64) (block : List UInt8) (count : Nat) (last : Bool) :
    (compress state block count last).size = 8 := by
  unfold compress
  dsimp only
  rw [Array.size_map, Array.size_range]

theorem size_absorb (more taken : Nat) (state : Array UInt64) (bytes : List UInt8) :
    (absorb more taken state bytes).size = 8 := by
  induction more generalizing taken state bytes with
  | zero => exact size_compress _ _ _ _
  | succ more inductionHypothesis => exact inductionHypothesis _ _ _

theorem length_littleEndian (count value : Nat) : (littleEndian count value).length = count := by
  induction count generalizing value with
  | zero => rfl
  | succ count inductionHypothesis => rw [littleEndian, List.length_cons, inductionHypothesis]

/-- A digest of up to 64 bytes has as many as it was asked for. -/
theorem length_digest (size : Nat) (bytes : List UInt8) (small : size ≤ 64) :
    (digest size bytes).length = size := by
  unfold digest
  dsimp only
  rw [List.length_take, List.length_flatMap]
  simp only [length_littleEndian]
  rw [List.map_const', List.sum_replicate_nat, Array.length_toList, size_absorb]
  omega

end Blake2b

/-- A hash of up to 64 bytes has as many as it was asked for. -/
theorem length_argon2 (parameters : Parameters) (password : List UInt8)
    (small : parameters.length ≤ 64) :
    (argon2 parameters password).length = parameters.length := by
  unfold argon2 longDigest
  dsimp only
  rw [if_pos small]
  exact Blake2b.length_digest _ _ small

/-! ### Reading a record back -/

/-- The record of a hash with the parameters that new records have. -/
def freshRecord (salt hash : List UInt8) : Record :=
  ⟨"argon2id", some 19, [("m", "19456"), ("t", "2"), ("p", "1")], some (Base64.encode salt),
    some hash⟩

/-- The fields of a new record. -/
def freshFields (salt hash : List UInt8) : List (List Char) :=
  [[], "argon2id".toList, "v=19".toList, "m=19456,t=2,p=1".toList, Base64.encode salt,
    Base64.encode hash]

theorem toList_write (salt hash : List UInt8) :
    (Record.write (Record.fallback .hybrid .adding salt 32) hash).toList =
      joinPieces '$' (freshFields salt hash) := by
  have front : "$" ++ "argon2id" ++ "$v=" ++ toString Version.adding.number ++ "$m=" ++
      toString 19456 ++ ",t=" ++ toString 2 ++ ",p=" ++ toString 1 ++ "$" =
      "$argon2id$v=19$m=19456,t=2,p=1$" := by decide +kernel
  show ("$" ++ "argon2id" ++ "$v=" ++ toString Version.adding.number ++ "$m=" ++
      toString 19456 ++ ",t=" ++ toString 2 ++ ",p=" ++ toString 1 ++ "$" ++
      String.ofList (Base64.encode salt) ++ "$" ++ String.ofList (Base64.encode hash)).toList = _
  rw [front]
  simp only [String.toList_append, String.toList_ofList, List.append_assoc]
  rfl

theorem pieces_write (salt hash : List UInt8) :
    pieces '$' (Record.write (Record.fallback .hybrid .adding salt 32) hash).toList =
      freshFields salt hash := by
  have written : ∀ bytes : List UInt8, '$' ∉ Base64.encode bytes := by
    intro bytes member
    exact Base64.forall_mem_encode (· ≠ '$') (by decide) bytes '$' member rfl
  rw [toList_write]
  refine pieces_joinPieces '$' _ (List.cons_ne_nil _ _) ?_
  unfold freshFields
  simp only [List.forall_mem_cons]
  exact ⟨by decide, by decide, by decide, by decide, written salt, written hash,
    List.forall_mem_nil _⟩

theorem salt?_encode (salt : List UInt8) (lower : 3 ≤ salt.length) (upper : salt.length ≤ 48) :
    Record.salt? (Base64.encode salt) = some (Base64.encode salt) := by
  have size := Base64.length_encode salt
  have chars : (Base64.encode salt).all Record.isValueChar = true :=
    List.all_eq_true.mpr
      (Base64.forall_mem_encode (fun c => Record.isValueChar c = true) (by decide) salt)
  rw [Record.salt?, chars, if_pos]
  simp only [Bool.and_true, Bool.and_eq_true, decide_eq_true_eq]
  omega

theorem hash?_encode (hash : List UInt8) (lower : 10 ≤ hash.length) (upper : hash.length ≤ 64) :
    Record.hash? (Base64.encode hash) = some hash := by
  rw [Record.hash?, Base64.decode?_encode, Option.filter_some, if_pos]
  simp only [Bool.and_eq_true, decide_eq_true_eq]
  exact ⟨lower, upper⟩

/-- A new record is read back as it was written. -/
theorem read?_write (salt hash : List UInt8) (saltLower : 3 ≤ salt.length)
    (saltUpper : salt.length ≤ 48) (hashLower : 10 ≤ hash.length) (hashUpper : hash.length ≤ 64) :
    Record.read? (Record.write (Record.fallback .hybrid .adding salt 32) hash) =
      some (freshRecord salt hash) := by
  unfold Record.read?
  rw [pieces_write, freshFields]
  have named : Record.isIdentifier "argon2id".toList = true := by decide
  have version : Record.takeVersion ["v=19".toList, "m=19456,t=2,p=1".toList, Base64.encode salt,
      Base64.encode hash] = some (some 19, ["m=19456,t=2,p=1".toList, Base64.encode salt,
        Base64.encode hash]) := rfl
  have parameters : Record.takeParameters ["m=19456,t=2,p=1".toList, Base64.encode salt,
      Base64.encode hash] = some ([("m", "19456"), ("t", "2"), ("p", "1")],
        [Base64.encode salt, Base64.encode hash]) := rfl
  dsimp only
  rw [named, version]
  dsimp only [Option.bind_eq_bind, Option.bind_some]
  rw [parameters]
  dsimp only [Option.bind_eq_bind, Option.bind_some]
  rw [salt?_encode salt saltLower saltUpper, hash?_encode hash hashLower hashUpper]
  rfl
/-! ### Verifying -/

/-- The parameters of a new record are those that it was made with. -/
theorem parametersOf?_freshRecord (salt hash : List UInt8) (enough : 8 ≤ salt.length) :
    (freshRecord salt hash).parametersOf? (Base64.encode salt) 32 =
      some (Record.fallback .hybrid .adding salt 32) := by
  have usable : Record.isUsable (Record.fallback .hybrid .adding salt 32) = true := by
    simp [Record.isUsable, Record.fallback, enough]
  have applied : [("m", "19456"), ("t", "2"), ("p", "1")].foldlM Record.apply
      (Record.fallback .hybrid .adding salt 32) =
        some (Record.fallback .hybrid .adding salt 32) := rfl
  show ((Base64.decode? (Base64.encode salt)).bind fun salt =>
    ([("m", "19456"), ("t", "2"), ("p", "1")].foldlM Record.apply
      (Record.fallback .hybrid .adding salt 32)).bind fun parameters =>
        if Record.isUsable parameters then some parameters else none) = _
  rw [Base64.decode?_encode, Option.bind_some, applied, Option.bind_some, if_pos usable]

/-- A password fits the record that was made for it, whatever it was salted with. -/
theorem verify_hash (salt : List UInt8) (password : String) (lower : 8 ≤ salt.length)
    (upper : salt.length ≤ 48) : verify (hash salt password) password = some true := by
  have size : (argon2 (Record.fallback .hybrid .adding salt 32) (utf8 password)).length = 32 :=
    length_argon2 _ _ (show 32 ≤ 64 by omega)
  rw [verify, hash, read?_write salt _ (by omega) upper (by omega) (by omega), Option.map_some,
    Record.fits]
  dsimp only [freshRecord]
  rw [size]
  have found := parametersOf?_freshRecord salt
    (argon2 (Record.fallback .hybrid .adding salt 32) (utf8 password)) lower
  rw [freshRecord] at found
  rw [found]
  exact congrArg some (beq_self_eq_true _)

end Password

end Zonecast
