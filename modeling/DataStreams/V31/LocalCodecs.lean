import DataStreams.V31.Committed
import DataStreams.V31.Execution

/-! Oracles with other codecs compute the same round, except for the `TWAP` calls they count
(v31). -/
namespace DataStreams.V31
open List Go SortedMap
variable {M : Type}

variable {id : ChannelID}
variable {f₁ f₂ : FactsOf}
variable {defs : ChannelDefinitions} {v : UpdateVote}
variable {J : JSON}
variable {codecs₁ codecs₂ : ReportCodecs}
variable {I : Instance M} {prev : KVState M}
variable (installed : ReportFormat → Bool)
def production : KVState Unit := { KVState.fresh () with lifeCycleStage := .production }

end DataStreams.V31
