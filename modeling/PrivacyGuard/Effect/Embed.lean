import PrivacyGuard.Effect.Prog

set_option autoImplicit false

/-! # Programs within a larger signature

A program over one signature is one over a larger signature, too: its operations are renamed, and
the answers to them taken back. Where the larger world contains the smaller one, as a component
that the renamed operations read and write, what is known of the program holds there. -/

namespace Effect

variable {S T : Sig} {σ τ ι κ α β : Type}

namespace Prog

/-- The program with its operations renamed by `f` and their answers taken back by `ans`. -/
def embed (f : S.Op → T.Op) (ans : ∀ o, T.Ret (f o) → S.Ret o) : Prog S α → Prog T α
  | ret a => ret a
  | call o k => call (f o) fun r => (k (ans o r)).embed f ans

end Prog

/-- The renamed operations act on a component of the state, as the original ones do. -/
structure Embeds (H : Handler S τ ι) (K : Handler T σ κ) (f : S.Op → T.Op)
    (ans : ∀ o, T.Ret (f o) → S.Ret o) (get : σ → τ) (put : τ → σ → σ) : Prop where
  get_put : ∀ t s, get (put t s) = t
  put_put : ∀ t t' s, put t' (put t s) = put t' s
  put_get : ∀ s, put (get s) s = s
  exec : ∀ o c s, K.admits (f o) c s → ∃ d, H.admits o d (get s) ∧
    ans o (K.exec (f o) c s).1 = (H.exec o d (get s)).1 ∧
    (K.exec (f o) c s).2 = put (H.exec o d (get s)).2 s

namespace Prog

variable {H : Handler S τ ι} {K : Handler T σ κ} {f : S.Op → T.Op}
  {ans : ∀ o, T.Ret (f o) → S.Ret o} {get : σ → τ} {put : τ → σ → σ}

theorem wp_embed (h : Embeds H K f ans get put) {p : Prog S α} {Q : α → σ → Prop} {s : σ}
    (hp : p.wp H (fun a t => Q a (put t s)) (get s)) : (p.embed f ans).wp K Q s := by
  induction p generalizing s with
  | ret a => exact (h.put_get s) ▸ hp
  | call o k ih =>
      intro c hc
      obtain ⟨d, hd, hans, hstate⟩ := h.exec o c s hc
      show ((k (ans o (K.exec (f o) c s).1)).embed f ans).wp K Q (K.exec (f o) c s).2
      rw [hans, hstate]
      refine ih _ ?_
      rw [h.get_put]
      simpa only [h.put_put] using hp d hd

end Prog

end Effect
