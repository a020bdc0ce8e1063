import DataStreams.V31.Run

/-! A node that completes every round computes a run (v31). -/
namespace DataStreams.V31
variable {M : Type}
def execute (I : Instance M) (node : Node) (aos : ℕ → List AttributedObservation) : ℕ → Go (KVState M × Precursor)
  | 0 => .ok (.fresh I.engine.initial,⟨.unset,0,∅,0,∅,fun _ _ => none,[]⟩)
  | n + 1 => do
    let (prev,_) ← execute I node aos n
    stateTransition I node (n + 1) prev (aos (n + 1))

lemma execute_ok_of_le {I : Instance M} {node : Node} {aos : ℕ → List AttributedObservation}
    {len : ℕ} (h : ∃ r, execute I node aos len = .ok r) : ∀ n, n ≤ len → ∃ r, execute I node aos n = .ok r := by
  induction len with
  | zero => exact fun n hn => Nat.le_zero.1 hn ▸ h
  | succ len ih =>
    intro n hn
    rcases Nat.eq_or_lt_of_le hn with rfl | hlt
    · exact h
    · obtain ⟨r,hr⟩ := h
      obtain ⟨prev,hprev,_⟩ := Go.bind_ok_iff.1 hr
      exact ih ⟨prev,hprev⟩ n (Nat.le_of_lt_succ hlt)

/-- The run of a node whose rounds all complete. -/
def Run.ofExecution (I : Instance M) (node : Node) (aos : ℕ → List AttributedObservation) (len : ℕ)
    (h : (execute I node aos len).isOk = true) : Run I where
  len := len
  input n := (node,aos n)
  state n := match execute I node aos n with
    | .ok r => r.1
    | .error _ => .fresh I.engine.initial
  out n := match execute I node aos n with
    | .ok r => r.2
    | .error _ => ⟨.unset,0,∅,0,∅,fun _ _ => none,[]⟩
  state_zero := rfl
  step_ok n hn := by
    have hlen : ∃ r, execute I node aos len = .ok r := by
      cases hr : execute I node aos len with
      | ok r => exact ⟨r,rfl⟩
      | error e => simp [hr,Except.isOk,Except.toBool] at h
    obtain ⟨r,hr⟩ := execute_ok_of_le hlen (n + 1) hn
    obtain ⟨prev,hprev,hstep⟩ := Go.bind_ok_iff.1 hr
    simp only [hr,hprev]
    exact hstep

def unanimous (minContributions : ℕ) : ValueEngine Unit where
  initial := ()
  evaluate _ r := .ok (fun sid agg =>
    match agg,r.contributions.get? sid with
    | .median,some (c :: rest) =>
      if rest.all (fun d => d.value = c.value) ∧ minContributions ≤ rest.length + 1 then some c.value
      else none
    | _,_ => none,())

def fromThree (raw : Bytes) : List AttributedObservation := [⟨0,raw⟩,⟨1,raw⟩,⟨2,raw⟩]

/-- Three oracles send the messages of a list from round 2 on, each with its blob handles. -/
def sentFrom (messages : List (List Bytes × ObservationProto)) : ℕ → List AttributedObservation
  | n + 2 => fromThree ((messages[n]?).elim [] (fun m => frameObservation m.1 (marshalObservation m.2)))
  | _ => fromThree []

/-- Four oracles, one of them possibly faulty, without a minimum report interval. -/
def fourOracles (predecessor : Option ConfigDigest) : Config := ⟨4,1,predecessor,2,0⟩

/-- They have no predecessor, and every record fits. -/
def smallInstance (libs : Libs) (wire : WireLibs) : Instance Unit where
  config := fourOracles none
  libs := libs
  wire := wire
  engine := unanimous 3
  verify _ _ _ := .error "no predecessor"
  byzQuorum := ⟨fun n f => (n + f) / 2 + 1,by omega,by omega⟩
  persist _ _ := .ok ()

def fiveBytes : Bytes := [0,0,0,0,2,5]

def priceBlob (round : ℕ) : BlobPayloadProto := ⟨round,.ofList [(1,some ⟨.decimal,fiveBytes⟩)]⟩

/-- Serves the blob of round `r` under the handle `[r]`. -/
def priceFetcher : BlobFetcher :=
  some (fun handle => .ok (0 :: marshalBlobPayload (priceBlob (handle.headD 0).toNat)))

/-- A node with every codec of the build and an empty analysis cache. -/
def nodeWithAllCodecs (L : Libs) (fetcher : BlobFetcher) : Node :=
  ⟨channelFactsFor L.json (codecsFor L rejectingExprs (fun _ => true)) .empty,fetcher⟩

end DataStreams.V31
