import KnowledgePlatform.Api.Sse
import KnowledgePlatform.Core.Retrieval
import KnowledgePlatform.Foundations.FeatureHashing

/-!
# Offline embeddings

Without a vendor the vectors come from `FakeEmbeddingProvider`: the alphanumeric
tokens of a text are hashed with a sign, and the counts are divided by their norm.
`hashlib.md5` and the division of floating-point numbers are parameters.  Of the
division it is only used that it keeps the sign; the counts themselves are exact.

Texts that share vocabulary are meant to be near each other.  As long as the hash
keeps the tokens apart they are (`inner_pos_iff`), and a search by vector lists the
chunks that share a token with the query before all others.  Tokens that collide with
opposite signs may cancel, and a text of which nothing is left is placed as one without
tokens.
-/

open Api Foundations Python Relational

namespace Core

/-- `hashlib.md5(data).digest()` and `v / math.sqrt(n)`. -/
structure Hashing where
  md5 : List UInt8 → List UInt8
  quotient : ℤ → ℤ → ℚ
  sign_quotient : ∀ v n, 0 < n → SignType.sign (quotient v n) = SignType.sign v

structure FakeEmbeddingProvider where
  dim : ℕ
  dim_pos : 0 < dim
  hashing : Hashing

namespace FakeEmbeddingProvider

/-- `[a-z0-9]` -/
def isTokenChar (c : Char) : Bool :=
  (97 ≤ c.toNat && c.toNat ≤ 122) || (48 ≤ c.toNat && c.toNat ≤ 57)

/-- `_TOKEN_RE.findall(text.lower())` -/
def tokens (text : Str) : List Str :=
  ((text.flatMap lower).splitOnP fun c => !isTokenChar c).filter (· ≠ [])

/-- `int.from_bytes(data, "big")` -/
def fromBytes (data : List UInt8) : ℕ := data.foldl (fun value byte => value * 256 + byte.toNat) 0

variable (provider : FakeEmbeddingProvider)

def bucket (text : Str) : ℕ :=
  fromBytes ((provider.hashing.md5 (encodeUtf8 text)).take 8) % provider.dim

/-- `1.0 if digest[8] & 1 else -1.0` -/
def sign (token : Str) : ℤ :=
  if ((provider.hashing.md5 (encodeUtf8 token)).getD 8 0).toNat % 2 = 1 then 1 else -1

/-- The counts before they are divided by their norm. -/
def values (text : Str) : List ℤ := hashed provider.bucket provider.sign provider.dim (tokens text)

/-- `sum(v * v for v in values)` -/
def squares (values : List ℤ) : ℤ := (values.map fun v => v * v).sum

/-- `_vector` -/
def vector (text : Str) : Embedding :=
  let values := provider.values text
  if squares values = 0 then (values.map Int.cast).set (provider.bucket text) 1
  else values.map fun v => provider.hashing.quotient v (squares values)

/-- The provider of a search. -/
def embeddings : EmbeddingProvider where
  name := "fake".toList
  model := "fake".toList
  embed texts := .ok (texts.map provider.vector)

end FakeEmbeddingProvider

/-- The inner product of two vectors. -/
def inner (first second : Embedding) : ℚ :=
  ∑ i ∈ Finset.range first.length, first.getD i 0 * second.getD i 0

namespace FakeEmbeddingProvider

/-- Two texts with a common token. -/
def Share (first second : Str) : Prop := ∃ token ∈ tokens first, token ∈ tokens second

/-- The hash keeps the tokens of a query and a text apart, and the place of a text
without tokens is none of a token of the query. -/
structure Apart (provider : FakeEmbeddingProvider) (query text : Str) : Prop where
  injective : ∀ token ∈ tokens query ++ tokens text, ∀ other ∈ tokens query ++ tokens text,
    provider.bucket token = provider.bucket other → token = other
  fallback : tokens text = [] → ∀ token ∈ tokens query, provider.bucket token ≠ provider.bucket text

section Spec

variable {provider : FakeEmbeddingProvider} {query text : Str}

theorem bucket_lt (provider : FakeEmbeddingProvider) (text : Str) :
    provider.bucket text < provider.dim :=
  Nat.mod_lt _ provider.dim_pos

theorem sign_mul_self (provider : FakeEmbeddingProvider) (token : Str) :
    provider.sign token * provider.sign token = 1 := by
  unfold sign
  split <;> rfl

theorem length_values (text : Str) : (provider.values text).length = provider.dim :=
  length_hashed ..

theorem length_vector (text : Str) : (provider.vector text).length = provider.dim := by
  unfold vector
  dsimp only
  split
  · rw [List.length_set, List.length_map, length_values]
  · rw [List.length_map, length_values]

/-- The weight of the tokens of a text in a bucket. -/
def weightOf (provider : FakeEmbeddingProvider) (text : Str) (i : ℕ) : ℤ :=
  weight provider.bucket provider.sign (tokens text) i

theorem weightOf_of_ge {i : ℕ} (hi : provider.dim ≤ i) : provider.weightOf text i = 0 :=
  weight_of_absent fun token _ hbucket =>
    absurd (bucket_lt provider token) (by rw [hbucket]; omega)

/-- A coordinate that is not zero makes the norm positive. -/
theorem squares_pos {values : List ℤ} {v : ℤ} (hv : v ∈ values) (hne : v ≠ 0) :
    0 < squares values := by
  have hsquare : v * v ≤ squares values := by
    refine List.single_le_sum ?_ _ (List.mem_map_of_mem hv)
    intro square hsquare
    obtain ⟨w, _, rfl⟩ := List.mem_map.mp hsquare
    exact mul_self_nonneg w
  exact lt_of_lt_of_le (mul_self_pos.mpr hne) hsquare

/-- A text whose tokens do not collide has a norm. -/
theorem squares_values_pos (hne : tokens text ≠ [])
    (hapart : ∀ token ∈ tokens text,
      ∀ other ∈ tokens text,
        provider.bucket token = provider.bucket other → token = other) :
    0 < squares (provider.values text) := by
  obtain ⟨token, htoken⟩ := List.exists_mem_of_ne_nil _ hne
  have hvalue : (provider.values text)[provider.bucket token]? =
      some (provider.weightOf text (provider.bucket token)) := by
    rw [values, getElem?_hashed, if_pos (bucket_lt provider token)]
    rfl
  refine squares_pos (List.mem_of_getElem? hvalue) ?_
  have hweight : provider.weightOf text (provider.bucket token) =
      (tokens text).count token * provider.sign token :=
    weight_of_alone fun other hother hsame => hapart other hother token htoken hsame
  have hcount := List.count_pos_iff.mpr htoken
  have hsign : provider.sign token ≠ 0 := by
    intro hzero
    have hone := sign_mul_self provider token
    rw [hzero] at hone
    cases hone
  rw [hweight]
  exact mul_ne_zero (by omega) hsign

/-- The coordinates of a text with a norm have the signs of its counts. -/
theorem sign_getD_vector (hpos : 0 < squares (provider.values text)) (i : ℕ) :
    SignType.sign ((provider.vector text).getD i 0) = SignType.sign (provider.weightOf text i) := by
  have hvalue : (provider.values text)[i]? =
      if i < provider.dim then some (provider.weightOf text i) else none := getElem?_hashed ..
  have hvector : provider.vector text = (provider.values text).map fun v =>
      provider.hashing.quotient v (squares (provider.values text)) := by
    unfold vector
    exact if_neg hpos.ne'
  rw [hvector, List.getD_eq_getElem?_getD, List.getElem?_map, hvalue]
  by_cases hi : i < provider.dim
  · rw [if_pos hi]
    exact provider.hashing.sign_quotient _ _ hpos
  · rw [if_neg hi, weightOf_of_ge (not_lt.mp hi)]
    simp

/-- A text without tokens has one coordinate. -/
theorem getD_vector_of_nil (hnil : tokens text = []) {i : ℕ}
    (hi : i ≠ provider.bucket text) : (provider.vector text).getD i 0 = 0 := by
  have hvalues : provider.values text = List.replicate provider.dim 0 := by
    rw [values, hnil]
    rfl
  have hsquares : squares (provider.values text) = 0 := by
    rw [hvalues]
    simp [squares]
  unfold vector
  rw [if_pos hsquares, hvalues, List.getD_eq_getElem?_getD, List.getElem?_set_ne hi.symm]
  simp [List.getElem?_replicate]
  split <;> rfl

/-- The products of the coordinates are never negative, and one is positive exactly
where the texts have a common token. -/
theorem product_pos_iff (hquery : tokens query ≠ [])
    (hapart : provider.Apart query text) :
    (∀ i, 0 ≤ (provider.vector query).getD i 0 * (provider.vector text).getD i 0) ∧
      ((∃ i, 0 < (provider.vector query).getD i 0 * (provider.vector text).getD i 0) ↔
        Share query text) := by
  have hnorm : 0 < squares (provider.values query) := squares_values_pos hquery
    fun token htoken other hother => hapart.injective token (List.mem_append_left _ htoken) other
      (List.mem_append_left _ hother)
  by_cases htext : tokens text = []
  · -- the one bucket of the text is none of the query's
    have hzero : ∀ i, (provider.vector query).getD i 0 * (provider.vector text).getD i 0 = 0 := by
      intro i
      by_cases hi : i = provider.bucket text
      · have habsent : provider.weightOf query i = 0 :=
          weight_of_absent fun token htoken hbucket =>
            hapart.fallback htext token htoken (hbucket.trans hi)
        have hsign := sign_getD_vector hnorm i
        rw [habsent, sign_zero, sign_eq_zero_iff] at hsign
        rw [hsign, zero_mul]
      · rw [getD_vector_of_nil htext hi, mul_zero]
    simp only [hzero]
    refine ⟨fun _ => le_rfl, fun ⟨_, hlt⟩ => absurd hlt (lt_irrefl 0), ?_⟩
    rintro ⟨token, _, htoken⟩
    rw [htext] at htoken
    cases htoken
  · have hnorm' : 0 < squares (provider.values text) := squares_values_pos htext
      fun token htoken other hother => hapart.injective token (List.mem_append_right _ htoken) other
        (List.mem_append_right _ hother)
    have hterm : ∀ i, SignType.sign
        ((provider.vector query).getD i 0 * (provider.vector text).getD i 0) =
          SignType.sign (provider.weightOf query i * provider.weightOf text i) := by
      intro i
      rw [sign_mul, sign_mul, sign_getD_vector hnorm, sign_getD_vector hnorm']
    have hmeet := weight_mul (sign_mul_self provider) hapart.injective
    constructor
    · intro i
      rw [← sign_nonneg_iff, hterm, sign_nonneg_iff]
      exact (hmeet i).1
    · constructor
      · rintro ⟨i, hpos⟩
        rw [← sign_eq_one_iff, hterm, sign_eq_one_iff] at hpos
        obtain ⟨token, hfirst, hsecond, _⟩ := (hmeet i).2.mp hpos
        exact ⟨token, hfirst, hsecond⟩
      · rintro ⟨token, hfirst, hsecond⟩
        refine ⟨provider.bucket token, ?_⟩
        rw [← sign_eq_one_iff, hterm, sign_eq_one_iff]
        exact (hmeet _).2.mpr ⟨token, hfirst, hsecond, rfl⟩

/-- The vectors have a common direction exactly if the texts share a token. -/
theorem inner_pos_iff (hquery : tokens query ≠ []) (hapart : provider.Apart query text) :
    0 ≤ inner (provider.vector query) (provider.vector text) ∧
      (0 < inner (provider.vector query) (provider.vector text) ↔ Share query text) := by
  obtain ⟨hnonneg, hshare⟩ := product_pos_iff hquery hapart
  refine ⟨Finset.sum_nonneg fun i _ => hnonneg i, ?_⟩
  unfold inner
  rw [Finset.sum_pos_iff_of_nonneg fun i _ => hnonneg i, ← hshare]
  constructor
  · rintro ⟨i, _, hpos⟩
    exact ⟨i, hpos⟩
  · rintro ⟨i, hpos⟩
    refine ⟨i, Finset.mem_range.mpr ?_, hpos⟩
    by_contra hbeyond
    rw [List.getD_eq_getElem?_getD, List.getElem?_eq_none (not_lt.mp hbeyond), Option.getD_none,
      zero_mul] at hpos
    exact lt_irrefl 0 hpos

end Spec

end FakeEmbeddingProvider

/-! ## Searches by vector -/

/-- What `ORDER BY embedding <=> vector` asks for, and an exact scan of the chunks of
all organizations does: it returns each of them, and chunks without a common direction
do not come before chunks with one.  An approximate index need not. -/
structure SearchEngine.Nearest (engine : SearchEngine) : Prop where
  perm : ∀ vector chunks, (engine.byDistance vector chunks).Perm chunks
  ordered : ∀ vector chunks, (engine.byDistance vector chunks).Pairwise fun first second =>
    inner vector first.embedding = 0 → inner vector second.embedding ≤ 0

/-- A list in which nothing without a property stands before something with it. -/
theorem exists_split_of_pairwise {α : Type} {property : α → Prop} {entries : List α}
    (h : entries.Pairwise fun first second => ¬property first → ¬property second) :
    ∃ early late, entries = early ++ late ∧ (∀ entry ∈ early, property entry) ∧
      ∀ entry ∈ late, ¬property entry := by
  induction h with
  | nil => exact ⟨[], [], rfl, List.forall_mem_nil _, List.forall_mem_nil _⟩
  | @cons entry entries hhead _ ih =>
      by_cases hentry : property entry
      · obtain ⟨early, late, rfl, hearly, hlate⟩ := ih
        exact ⟨entry :: early, late, rfl, List.forall_mem_cons.mpr ⟨hentry, hearly⟩, hlate⟩
      · exact ⟨[], entry :: entries, rfl, List.forall_mem_nil _,
          List.forall_mem_cons.mpr ⟨hentry, fun later hlater => hhead later hlater hentry⟩⟩

open FakeEmbeddingProvider

/-- With the offline provider no coordinates of the query and of a chunk have opposite
signs, and some have the same exactly if the texts share a token.  So, if the index is
scanned exactly, the vector arm of a search lists the chunks that share a token with the
query before those that share none. -/
theorem vectorArm_sharing_first {settings : Settings} {engine : SearchEngine} {query : Str}
    {ids : List Uuid} {conn conn' : Conn} {provider : FakeEmbeddingProvider}
    (hrun : (vectorArm settings engine query).Runs conn ids conn')
    (hprovider : engine.provider = provider.embeddings)
    (hindexed : ∀ chunk ∈ conn.db .documentChunks,
      conn.policy.visible .documentChunks chunk = true →
        chunk.embedding = provider.vector chunk.content)
    (hquery : tokens query ≠ [])
    (hapart : ∀ chunk ∈ conn.db .documentChunks,
      conn.policy.visible .documentChunks chunk = true → provider.Apart query chunk.content) :
    (∀ chunk ∈ conn.db .documentChunks, conn.policy.visible .documentChunks chunk = true →
      (∀ i, 0 ≤ (provider.vector query).getD i 0 * chunk.embedding.getD i 0) ∧
        ((∃ i, 0 < (provider.vector query).getD i 0 * chunk.embedding.getD i 0) ↔
          Share query chunk.content)) ∧
    (engine.Nearest → ∃ sharing others : List DocumentChunk,
      ids = ((sharing ++ others).take settings.retrievalCandidateK).map DocumentChunk.id ∧
      (sharing ++ others).Perm
        ((conn.db .documentChunks).filter (conn.policy.visible .documentChunks)) ∧
      (∀ chunk ∈ sharing, Share query chunk.content) ∧
      ∀ chunk ∈ others, ¬Share query chunk.content) := by
  constructor
  · intro chunk hchunk hvisible
    rw [hindexed chunk hchunk hvisible]
    exact product_pos_iff hquery (hapart chunk hchunk hvisible)
  intro hnearest
  simp only [vectorArm, vectorRankedIds, Program.runs_bind, runs_ofLibrary, Program.runs_orRaise,
    runs_scanned, Program.runs_pure, hprovider] at hrun
  obtain ⟨_, _, ⟨hembed, rfl⟩, _, _, ⟨hvector, rfl⟩, chunks, _, ⟨hchunks, rfl⟩, rfl, rfl⟩ := hrun
  cases hembed
  cases hvector
  obtain rfl : chunks = (engine.byDistance (provider.vector query) (conn.db .documentChunks)).filter
      (conn.policy.visible .documentChunks) := by
    unfold Policy.scanRows at hchunks
    split at hchunks
    · cases hchunks
      rfl
    · cases hchunks
  have hperm := (hnearest.perm (provider.vector query) (conn.db .documentChunks)).filter
    (conn.policy.visible .documentChunks)
  have hshares : ∀ chunk ∈ (engine.byDistance (provider.vector query)
      (conn.db .documentChunks)).filter (conn.policy.visible .documentChunks),
      0 ≤ inner (provider.vector query) chunk.embedding ∧
        (0 < inner (provider.vector query) chunk.embedding ↔ Share query chunk.content) := by
    intro chunk hchunk
    obtain ⟨hmem, hvisible⟩ := List.mem_filter.mp (hperm.mem_iff.mp hchunk)
    rw [hindexed chunk hmem hvisible]
    exact inner_pos_iff hquery (hapart chunk hmem hvisible)
  have hordered : ((engine.byDistance (provider.vector query) (conn.db .documentChunks)).filter
      (conn.policy.visible .documentChunks)).Pairwise fun first second =>
        ¬Share query first.content → ¬Share query second.content := by
    refine ((hnearest.ordered (provider.vector query) _).filter _).imp_of_mem ?_
    intro first second hfirst hsecond hbefore hnone hshare
    obtain ⟨hnonneg, hpos⟩ := hshares first hfirst
    have hzero : inner (provider.vector query) first.embedding = 0 :=
      le_antisymm (not_lt.mp fun h => hnone (hpos.mp h)) hnonneg
    exact absurd ((hshares second hsecond).2.mpr hshare) (not_lt.mpr (hbefore hzero))
  obtain ⟨sharing, others, hsplit, hsharing, hothers⟩ := exists_split_of_pairwise hordered
  refine ⟨sharing, others, ?_, ?_, hsharing, hothers⟩
  · rw [← hsplit]
  · rw [← hsplit]
    exact hperm

/-! ### A search for rain -/

/-- The digests of two words. -/
def sampleMd5 (data : List UInt8) : List UInt8 :=
  if data = encodeUtf8 "rain".toList then
    [35, 103, 141, 181, 239, 222, 154, 180, 107, 206, 140, 35, 166, 217, 27, 80]
  else if data = encodeUtf8 "snow".toList then
    [43, 147, 251, 223, 39, 212, 53, 71, 190, 200, 121, 64, 84, 194, 142, 0]
  else []

/-- The quotients by the root, which is exact for a count of one. -/
def sampleHashing : Hashing where
  md5 := sampleMd5
  quotient v n := v / (Nat.sqrt n.toNat : ℚ)
  sign_quotient v n hn := by
    have hroot : (0 : ℚ) < Nat.sqrt n.toNat := by
      exact_mod_cast Nat.sqrt_pos.mpr (by omega)
    rw [div_eq_mul_inv, sign_mul, sign_pos (inv_pos.mpr hroot), mul_one]
    rcases lt_trichotomy v 0 with hneg | rfl | hpos
    · rw [sign_neg hneg, sign_neg (by exact_mod_cast hneg)]
    · simp
    · rw [sign_pos hpos, sign_pos (by exact_mod_cast hpos)]

def sampleProvider : FakeEmbeddingProvider where
  dim := 8
  dim_pos := by decide
  hashing := sampleHashing

/-- Chunks with a positive product first. -/
def nearestEngine : SearchEngine where
  provider := sampleProvider.embeddings
  byDistance vector chunks :=
    (chunks.filter fun chunk => 0 < inner vector chunk.embedding) ++
      chunks.filter fun chunk => !decide (0 < inner vector chunk.embedding)
  byRelevance _ chunks := chunks

theorem nearest_nearestEngine : nearestEngine.Nearest where
  perm _ _ := List.filter_append_perm _ _
  ordered vector chunks := by
    refine List.pairwise_append.mpr ⟨?_, ?_, ?_⟩
    · refine List.pairwise_of_forall_mem_list fun first hfirst second _ hzero => ?_
      rw [List.mem_filter, hzero] at hfirst
      simp at hfirst
    · refine List.pairwise_of_forall_mem_list fun first _ second hsecond _ => ?_
      rw [List.mem_filter] at hsecond
      simpa using hsecond.2
    · intro first hfirst second _ hzero
      rw [List.mem_filter, hzero] at hfirst
      simp at hfirst

/-- A chunk about snow, and one about rain. -/
def weatherDb : Database
  | .organizations => [⟨1, "Acme".toList, "acme".toList, none, 0⟩]
  | .documents => [⟨4, 1, "a.pdf".toList, none, none, none, none, .ready, 0⟩]
  | .documentChunks =>
      [⟨8, 1, 4, 0, "Snow.".toList, 1, sampleProvider.vector "Snow.".toList, 0⟩,
        ⟨9, 1, 4, 1, "Rain!".toList, 1, sampleProvider.vector "Rain!".toList, 0⟩]
  | _ => []

def weatherConn : Conn := { Conn.start .appUser 11 weatherDb with currentOrg := some 1 }

theorem tokens_sample : tokens "Rain?".toList = ["rain".toList] ∧
    tokens "Rain!".toList = ["rain".toList] ∧ tokens "Snow.".toList = ["snow".toList] := by
  decide +kernel

theorem bucket_sample : sampleProvider.bucket "rain".toList = 4 ∧
    sampleProvider.bucket "snow".toList = 7 := by
  decide +kernel

theorem vectorArm_sharing_first_rain : ∃ ids,
    (vectorArm {} nearestEngine "Rain?".toList).Runs weatherConn ids weatherConn ∧
    ∃ sharing others : List DocumentChunk,
      ids = ((sharing ++ others).take 50).map DocumentChunk.id ∧
      (sharing ++ others).Perm ((weatherConn.db .documentChunks).filter
        (weatherConn.policy.visible .documentChunks)) ∧
      (∀ chunk ∈ sharing, Share "Rain?".toList chunk.content) ∧
      ∀ chunk ∈ others, ¬Share "Rain?".toList chunk.content := by
  obtain ⟨hquery, hrain, hsnow⟩ := tokens_sample
  obtain ⟨hbucketRain, hbucketSnow⟩ := bucket_sample
  have hrows : ∀ scan, weatherConn.policy.scanRows weatherConn.db .documentChunks scan =
      .ok ((scan (weatherDb .documentChunks)).filter
        (weatherConn.policy.visible .documentChunks)) := fun _ => rfl
  obtain ⟨ids, hrun⟩ : ∃ ids, (vectorArm {} nearestEngine "Rain?".toList).Runs weatherConn ids
      weatherConn := by
    simp only [vectorArm, vectorRankedIds, Program.runs_bind, runs_ofLibrary,
      Program.runs_orRaise, runs_scanned, Program.runs_pure]
    exact ⟨_, _, _, ⟨rfl, rfl⟩, _, _, ⟨rfl, rfl⟩, _, _, ⟨hrows _, rfl⟩, rfl, rfl⟩
  refine ⟨ids, hrun, (vectorArm_sharing_first hrun rfl ?_ ?_ ?_).2 nearest_nearestEngine⟩
  · intro chunk hchunk _
    rcases List.mem_pair.mp hchunk with rfl | rfl
    · rfl
    · rfl
  · rw [hquery]
    exact List.cons_ne_nil _ _
  · intro chunk hchunk _
    rcases List.mem_pair.mp hchunk with rfl | rfl
    · refine ⟨?_, fun hnone => ?_⟩
      · show ∀ token ∈ tokens _ ++ tokens "Snow.".toList,
          ∀ other ∈ tokens _ ++ tokens "Snow.".toList, _
        rw [hquery, hsnow]
        simp only [List.singleton_append, List.mem_pair]
        rintro token (rfl | rfl) other (rfl | rfl) hbucket
        · rfl
        · rw [hbucketRain, hbucketSnow] at hbucket
          cases hbucket
        · rw [hbucketRain, hbucketSnow] at hbucket
          cases hbucket
        · rfl
      · rw [show tokens _ = _ from hsnow] at hnone
        cases hnone
    · refine ⟨?_, fun hnone => ?_⟩
      · show ∀ token ∈ tokens _ ++ tokens "Rain!".toList,
          ∀ other ∈ tokens _ ++ tokens "Rain!".toList, _
        rw [hquery, hrain]
        simp only [List.singleton_append, List.mem_pair]
        rintro token (rfl | rfl) other (rfl | rfl) hbucket <;> rfl
      · rw [show tokens _ = _ from hrain] at hnone
        cases hnone

end Core
