/-
What a published root says of a list somebody else recomputes it from.

`merkleRoot_binding` is about a pairing without collisions, which a hash
of 64 bytes to 32 is not. Here the hash is Keccak on byte strings and
what is asked of it is about two trees only: that it tells what is hashed
in one from what is hashed in the other. The second list may come from
anywhere, as long as its entries are digests and there are as many.

# Bytes on both sides

A hash of 64 bytes is a hash of two nodes only if both are 32 bytes, and
the sorted pair hides which came first. `pairBytes_inj` turns equal bytes
into equal pairs up to their order, given the lengths, and every joined
node has the right one (`joined_lengths`).

What is asked of the hash is that two inputs hashed in the two trees do
not collide unless they are equal. The two lists of inputs are finite and
are computed from the lists of leaves, so for given lists the hypothesis
is a finite check; nothing is asked of the hash elsewhere, and a collision
elsewhere does not matter.
-/
import Proofstand.Anchor.Proofs.Merkle
import Proofstand.Lib.PairBinding

namespace Proofstand.Anchor

open Hex PairTree Fallible

-- ======================================================== what is hashed

/-- `f` tells the values of `us` from those of `vs`. -/
def TellsApart {α β : Type} (f : α → β) (us vs : List α) : Prop :=
  ∀ u ∈ us, ∀ v ∈ vs, f u = f v → u = v

instance {α β : Type} [DecidableEq α] [DecidableEq β] (f : α → β)
    (us vs : List α) : Decidable (TellsApart f us vs) :=
  inferInstanceAs (Decidable (∀ u ∈ us, ∀ v ∈ vs, f u = f v → u = v))

/-- The bytes a pair is hashed as. -/
def pairBytes (p : Bytes × Bytes) : Bytes :=
  if p.1 ≤ p.2 then p.1 ++ p.2 else p.2 ++ p.1

/-- What `merkle_root` gives `keccak` over these nodes. -/
def hashedNodes (K : Keccak) (level : List Bytes) : List Bytes :=
  (joined (sortedPair (byteNodes K)) level
    (Nat.clog 2 level.length)).map pairBytes

/-- What `merkle_root` gives `keccak` over these leaves. -/
def hashed (K : Keccak) (leaves : List String) : List Bytes :=
  match leaves.mapM leafBytes with
  | .ok level => hashedNodes K level
  | .error _ => []

/-- Two nodes are joined by hashing their bytes, the lesser first. -/
theorem sortedPair_eq_digest (K : Keccak) (a b : Bytes) :
    sortedPair (byteNodes K) a b = K.digest (pairBytes (a, b)) := by
  unfold sortedPair pairBytes
  split
  · rfl
  · rfl

/-- The bytes of a pair of nodes of one length are the pair, up to its
order. -/
theorem pairBytes_inj {n : Nat} {p q : Bytes × Bytes}
    (hp : p.1.length = n ∧ p.2.length = n)
    (hq : q.1.length = n ∧ q.2.length = n) (h : pairBytes p = pairBytes q) :
    (p.1 = q.1 ∧ p.2 = q.2) ∨ (p.1 = q.2 ∧ p.2 = q.1) := by
  unfold pairBytes at h
  split at h
  · split at h
    · exact Or.inl (List.append_inj h (hp.1.trans hq.1.symm))
    · exact Or.inr (List.append_inj h (hp.1.trans hq.2.symm))
  · split at h
    · have hboth := List.append_inj h (hp.2.trans hq.1.symm)
      exact Or.inr ⟨hboth.2, hboth.1⟩
    · have hboth := List.append_inj h (hp.2.trans hq.2.symm)
      exact Or.inl ⟨hboth.2, hboth.1⟩

/-- Every node that is joined is 32 bytes. -/
theorem joined_lengths (K : Keccak) {level : List Bytes}
    (hlevel : ∀ n ∈ level, n.length = 32) (k : Nat) :
    ∀ p ∈ joined (sortedPair (byteNodes K)) level k,
      p.1.length = 32 ∧ p.2.length = 32 := by
  have hjoin : ∀ a b, (sortedPair (byteNodes K) a b).length = 32 := by
    intro a b
    rw [sortedPair_eq_digest]
    exact K.digest_length _
  induction k with
  | zero => exact fun p hp => by cases hp
  | succ k ih =>
      intro p hp
      rcases List.mem_append.1 hp with hp | hp
      · exact ih p hp
      · obtain ⟨h1, h2⟩ := mem_of_pair hp
        have hall := levels_all (sortedPair (byteNodes K)) hjoin hlevel k
        exact ⟨hall _ h1, hall _ h2⟩

/-- A hash that tells the bytes apart tells the pairs apart. -/
theorem tells_of_hashed (K : Keccak) {level level' : List Bytes}
    (hlevel : ∀ n ∈ level, n.length = 32)
    (hlevel' : ∀ n ∈ level', n.length = 32)
    (h : TellsApart K.digest (hashedNodes K level)
      (hashedNodes K level')) :
    Tells (sortedPair (byteNodes K))
      (joined (sortedPair (byteNodes K)) level (Nat.clog 2 level.length))
      (joined (sortedPair (byteNodes K)) level'
        (Nat.clog 2 level'.length)) := by
  intro p hp q hq heq
  rw [sortedPair_eq_digest, sortedPair_eq_digest] at heq
  exact pairBytes_inj (joined_lengths K hlevel _ p hp)
    (joined_lengths K hlevel' _ q hq)
    (h _ (List.mem_map_of_mem hp) _ (List.mem_map_of_mem hq) heq)

-- =============================================================== digests

/-- Lower-case digit pairs are how their bytes are written. -/
theorem encodeHex_of_lower {cs : List Char} {bs : Bytes}
    (h : HexPairs cs bs) (hlower : ∀ c ∈ cs, ∃ d, c = lowerDigit d) :
    encodeHex bs = cs := by
  induction h with
  | nil => rfl
  | @cons c d hi lo rest bs hc hd _ ih =>
      obtain ⟨x, rfl⟩ := hlower c List.mem_cons_self
      obtain ⟨y, rfl⟩ := hlower d (List.mem_cons_of_mem _ List.mem_cons_self)
      rw [hexVal_lowerDigit] at hc hd
      obtain rfl := Option.some.inj hc
      obtain rfl := Option.some.inj hd
      have hrest := ih fun e he =>
        hlower e (List.mem_cons_of_mem _ (List.mem_cons_of_mem _ he))
      have hhi : (byteOf x y).val / 16 = x.val := by
        simp only [byteOf]
        omega
      have hlo : (byteOf x y).val % 16 = y.val := by
        simp only [byteOf]
        omega
      show byteChars (byteOf x y) ++ encodeHex bs = _
      rw [hrest, byteChars]
      simp only [hhi, hlo, Fin.eta, List.cons_append, List.nil_append]

/-- A digest reads as 32 bytes, and is how they are written. -/
theorem Digest.read (d : Digest) :
    ∃ bs, leafBytes d.hex = .ok bs ∧ bs.length = 32
      ∧ encodeHex bs = d.hex.toList := by
  have hdigits : ∀ c ∈ d.hex.toList, (hexVal c).isSome := by
    intro c hc
    obtain ⟨x, rfl⟩ := d.lower c hc
    rw [hexVal_lowerDigit]
    rfl
  obtain ⟨bs, hbs, hlen⟩ :=
    exists_hexPairs (show d.hex.toList.length = 2 * 32 from d.length_eq)
      hdigits
  exact ⟨bs, leafBytes_of_hexPairs (Or.inl rfl) hdigits hbs, hlen,
    encodeHex_of_lower hbs d.lower⟩

theorem Digest.hex_of_read {d d' : Digest} {bs : Bytes}
    (h : leafBytes d.hex = .ok bs) (h' : leafBytes d'.hex = .ok bs) :
    d.hex = d'.hex := by
  obtain ⟨cs, hread, -, hhex⟩ := d.read
  obtain ⟨cs', hread', -, hhex'⟩ := d'.read
  rw [h] at hread
  rw [h'] at hread'
  cases hread
  cases hread'
  exact String.toList_injective (hhex.symm.trans hhex')

/-- The nodes of a list of digests, in its order. -/
theorem read_digests (ds : List Digest) :
    ∃ level, (ds.map Digest.hex).mapM leafBytes = .ok level
      ∧ ∀ n ∈ level, n.length = 32 := by
  refine level_of_isHex32 fun leaf hleaf => ?_
  obtain ⟨d, -, rfl⟩ := List.mem_map.1 hleaf
  exact isHex32_of_isLowerHex32 d.isLowerHex32

/-- Digests whose nodes are among another list's nodes are among its
digests. -/
theorem digest_of_node {ds es : List Digest} {level level' : List Bytes}
    (hlevel : (ds.map Digest.hex).mapM leafBytes = .ok level)
    (hlevel' : (es.map Digest.hex).mapM leafBytes = .ok level')
    (h : ∀ n ∈ level, n ∈ level') :
    ∀ d ∈ ds, d.hex ∈ es.map Digest.hex := by
  intro d hd
  obtain ⟨bs, hread, -⟩ := d.read
  have hmem : bs ∈ level :=
    (mem_mapM_iff hlevel).2 ⟨d.hex, List.mem_map_of_mem hd, hread⟩
  obtain ⟨leaf, hleaf, hread'⟩ := (mem_mapM_iff hlevel').1 (h bs hmem)
  obtain ⟨e, he, rfl⟩ := List.mem_map.1 hleaf
  rw [Digest.hex_of_read hread hread']
  exact hleaf

-- =============================================================== the root

/-- Lists of as many digests with one root have the same members, where
Keccak tells what is hashed over one from what is hashed over the
other. -/
theorem digests_of_root (K : Keccak) {ds es : List Digest} {root : String}
    (hne : ds ≠ []) (hlen : ds.length = es.length)
    (hroot : merkleRoot (byteNodes K) (ds.map Digest.hex) = .ok root)
    (hroot' : merkleRoot (byteNodes K) (es.map Digest.hex) = .ok root)
    (hkeccak : TellsApart K.digest (hashed K (ds.map Digest.hex))
      (hashed K (es.map Digest.hex))) :
    ∀ x, x ∈ ds.map Digest.hex ↔ x ∈ es.map Digest.hex := by
  obtain ⟨level, hlevel, hlevel32⟩ := read_digests ds
  obtain ⟨level', hlevel', hlevel32'⟩ := read_digests es
  have hne' : es ≠ [] := by
    intro heq
    subst heq
    exact hne (List.length_eq_zero_iff.1 hlen)
  have hlens : level.length = level'.length := by
    rw [mapM_length hlevel, mapM_length hlevel', List.length_map,
      List.length_map, hlen]
  obtain ⟨top, htop⟩ := exists_top (byteNodes K)
    (fun h => hne (List.map_eq_nil_iff.1 h)) hlevel
  obtain ⟨top', htop'⟩ := exists_top (byteNodes K)
    (fun h => hne' (List.map_eq_nil_iff.1 h)) hlevel'
  -- one root is one top
  rw [merkleRoot_eq (byteNodes K) (fun h => hne (List.map_eq_nil_iff.1 h))
    hlevel htop] at hroot
  rw [merkleRoot_eq (byteNodes K) (fun h => hne' (List.map_eq_nil_iff.1 h))
    hlevel' htop'] at hroot'
  have htops : top = top' := by
    have hhex : (byteNodes K).hex top = (byteNodes K).hex top' :=
      Except.ok.inj (hroot.trans hroot'.symm)
    have hread := byteNodes_reads K top
    rw [hhex, byteNodes_reads K top'] at hread
    exact (Except.ok.inj hread).symm
  rw [hashed, hashed, hlevel, hlevel'] at hkeccak
  have htells := tells_of_hashed K hlevel32 hlevel32' hkeccak
  rw [← hlens] at htells htop'
  have hnodes := mem_iff_of_tells htells fun x => by rw [htop, htop', htops]
  intro x
  constructor
  · intro hx
    obtain ⟨d, hd, rfl⟩ := List.mem_map.1 hx
    exact digest_of_node hlevel hlevel' (fun n hn => (hnodes n).1 hn) d hd
  · intro hx
    obtain ⟨d, hd, rfl⟩ := List.mem_map.1 hx
    exact digest_of_node hlevel' hlevel (fun n hn => (hnodes n).2 hn) d hd

end Proofstand.Anchor
