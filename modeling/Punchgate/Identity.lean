import Punchgate.Library.Mealy
import Punchgate.Library.Text

/-!
# The identity of a node

A node generates a key pair when it is started for the first time, and loads it from its file
afterwards. A start may fail at any point, also in the middle of writing the file. `Path::exists` is
`false` also for a file that is there but cannot be looked at.
-/

namespace Punchgate

/-- Key pairs as `libp2p` handles them, with their protobuf encoding. -/
structure KeypairApi (K : Type) where
  /-- `Keypair::to_protobuf_encoding`. -/
  toProtobuf : K → Except String (List UInt8)
  /-- `Keypair::from_protobuf_encoding`. -/
  fromProtobuf : List UInt8 → Except String K

/-- What makes `load_or_generate` fail. -/
inductive IdentityError
  /-- reading identity -/
  | reading
  /-- decoding identity -/
  | decoding (text : String)
  /-- encoding identity -/
  | encoding (text : String)
  /-- creating directory -/
  | creatingDirectory
  /-- writing identity -/
  | writing
  deriving DecidableEq

/-- How the file system treats a start. -/
inductive FileOutcome
  | succeeds
  | readFails
  | directoryFails
  /-- Nothing was created, or so many bytes have been written. The process may also be killed. -/
  | writeFails (written : Option ℕ)
  deriving DecidableEq

/-- A start: the key pair that it would generate, and what the file system does. -/
structure NodeStart (K : Type) where
  /-- `Keypair::generate_ed25519`. -/
  generated : K
  /-- `Path::exists` is `true` for a file that is there. -/
  sees : Bool
  /-- What the file system does then. -/
  outcome : FileOutcome

section Load

variable {K : Type} (api : KeypairApi K)

/-- `load_or_generate`, with the content of the file before and after. -/
def loadOrGenerate (file : Option (List UInt8)) (start : NodeStart K) :
    Option (List UInt8) × Except IdentityError K :=
  match file, start.sees with
  | some bytes, true =>
    if start.outcome = .readFails then (file, .error .reading)
    else (file, (api.fromProtobuf bytes).mapError .decoding)
  | _, _ =>
    match api.toProtobuf start.generated with
    | .error text => (file, .error (.encoding text))
    | .ok bytes =>
      match start.outcome with
      | .directoryFails => (file, .error .creatingDirectory)
      | .writeFails written => ((written.map bytes.take).or file, .error .writing)
      | _ => (some bytes, .ok start.generated)

/-- The starts of a node, one after the other. -/
def identityFile : Mealy.Machine (Option (List UInt8)) (NodeStart K) (Except IdentityError K) where
  step file start := ((loadOrGenerate api file start).1, [(loadOrGenerate api file start).2])

variable {api} {file : Option (List UInt8)} {bytes : List UInt8} {k : K}

/-- A file that is seen stays as it is, and what is returned is read from it. -/
theorem loadOrGenerate_of_seen {start : NodeStart K} (hsees : start.sees = true) :
    (loadOrGenerate api (some bytes) start).1 = some bytes ∧
      ((loadOrGenerate api (some bytes) start).2 = .ok k → api.fromProtobuf bytes = .ok k) := by
  unfold loadOrGenerate
  rw [hsees]
  dsimp only
  split
  · exact ⟨rfl, fun h => (by cases h)⟩
  · exact ⟨rfl, fun h => Text.mapError_eq_ok_iff.mp h⟩

/-- **Step.** What a start returns is in the file afterwards, whether it was read or generated. -/
theorem fromProtobuf_of_ok (hround : ∀ k bytes, api.toProtobuf k = .ok bytes →
      api.fromProtobuf bytes = .ok k) {start : NodeStart K}
    (h : (loadOrGenerate api file start).2 = .ok k) :
    ∃ bytes, (loadOrGenerate api file start).1 = some bytes ∧ api.fromProtobuf bytes = .ok k := by
  unfold loadOrGenerate at h ⊢
  split at h
  · rename_i bytes _
    split at h
    · cases h
    · rename_i hread
      rw [if_neg hread]
      exact ⟨bytes, rfl, Text.mapError_eq_ok_iff.mp h⟩
  · split at h
    · cases h
    · rename_i bytes hto
      split at h
      · cases h
      · cases h
      · cases h
        exact ⟨bytes, rfl, hround start.generated bytes hto⟩

/-- A file that all starts see stays as it is. -/
theorem after_of_some {starts : List (NodeStart K)} (hsees : ∀ start ∈ starts, start.sees = true) :
    (identityFile api).after (some bytes) starts = some bytes := by
  have hguarded : (identityFile api).Guarded (fun _ start => start.sees = true) (some bytes)
      starts := .of_forall_mem fun start hstart _ => hsees start hstart
  refine hguarded.invariant (P := fun file => file = some bytes) rfl fun file start h hseen => ?_
  subst h
  exact (loadOrGenerate_of_seen (k := start.generated) hseen).1

/-- What a start returns is in the file ever after. -/
theorem after_of_ok (hround : ∀ k bytes, api.toProtobuf k = .ok bytes →
      api.fromProtobuf bytes = .ok k) {starts : List (NodeStart K)}
    (hsees : ∀ start ∈ starts, start.sees = true)
    (h : .ok k ∈ (identityFile api).outputs file starts) :
    ∃ bytes, (identityFile api).after file starts = some bytes ∧
      api.fromProtobuf bytes = .ok k := by
  induction starts generalizing file with
  | nil => cases h
  | cons start starts ih =>
    have hlaterSees (later : NodeStart K) (hlater : later ∈ starts) : later.sees = true :=
      hsees later (List.mem_cons_of_mem start hlater)
    rcases List.mem_append.mp h with hfirst | hlater
    · obtain ⟨bytes, hfile, hfrom⟩ := fromProtobuf_of_ok hround (List.mem_singleton.mp hfirst).symm
      have hafter : (identityFile api).after file (start :: starts) =
          (identityFile api).after (loadOrGenerate api file start).1 starts := rfl
      exact ⟨bytes, by rw [hafter, hfile, after_of_some hlaterSees], hfrom⟩
    · exact ih hlaterSees hlater

/-- **Stability.** In every sequence of starts that can tell whether the file is there, whatever key
pairs they would generate and however they fail, also in the middle of writing, all that succeed
return the same key pair; and it is the one that the file holds from then on. -/
theorem identity_is_stable (hround : ∀ k bytes, api.toProtobuf k = .ok bytes →
      api.fromProtobuf bytes = .ok k) {starts : List (NodeStart K)}
    (hsees : ∀ start ∈ starts, start.sees = true)
    (h : .ok k ∈ (identityFile api).outputs file starts) :
    (∀ k', .ok k' ∈ (identityFile api).outputs file starts → k' = k) ∧
      ∀ more : List (NodeStart K), (∀ start ∈ more, start.sees = true) →
        ∃ bytes, (identityFile api).after file (starts ++ more) = some bytes ∧
          api.fromProtobuf bytes = .ok k := by
  obtain ⟨bytes, hafter, hfrom⟩ := after_of_ok hround hsees h
  constructor
  · intro k' h'
    obtain ⟨bytes', hafter', hfrom'⟩ := after_of_ok hround hsees h'
    cases hafter.symm.trans hafter'
    cases hfrom'.symm.trans hfrom
    rfl
  · intro more hmore
    rw [Mealy.Machine.after_append, hafter, after_of_some hmore]
    exact ⟨bytes, rfl, hfrom⟩

end Load

/-- Key pairs that are one byte, encoded with their length. -/
def byteKeys : KeypairApi UInt8 where
  toProtobuf k := .ok [1, k]
  fromProtobuf bytes :=
    match bytes with
    | [1, k] => .ok k
    | _ => .error "unexpected end"

/-- The third start loads what the first one has generated. -/
theorem identity_is_stable_reloaded :
    (∀ k', .ok k' ∈ (identityFile byteKeys).outputs none
      [⟨7, true, .succeeds⟩, ⟨8, true, .readFails⟩, ⟨9, true, .succeeds⟩] → k' = 7) ∧
    ∀ more : List (NodeStart UInt8), (∀ start ∈ more, start.sees = true) →
      ∃ bytes, (identityFile byteKeys).after none
        ([⟨7, true, .succeeds⟩, ⟨8, true, .readFails⟩, ⟨9, true, .succeeds⟩] ++ more) = some bytes ∧
          byteKeys.fromProtobuf bytes = .ok 7 := by
  have hround (k : UInt8) (bytes : List UInt8) (h : byteKeys.toProtobuf k = .ok bytes) :
      byteKeys.fromProtobuf bytes = .ok k := by
    cases h
    rfl
  have hsees : ∀ start ∈ ([⟨7, true, .succeeds⟩, ⟨8, true, .readFails⟩, ⟨9, true, .succeeds⟩] :
      List (NodeStart UInt8)), start.sees = true := by simp
  exact identity_is_stable hround hsees List.mem_cons_self

/-- A start that does not see the file replaces the key pair in it. -/
example : (identityFile byteKeys).outputs none [⟨7, true, .succeeds⟩, ⟨8, false, .succeeds⟩] =
    [.ok 7, .ok 8] := rfl

end Punchgate
