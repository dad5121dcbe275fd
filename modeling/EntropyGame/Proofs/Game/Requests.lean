import EntropyGame.Proofs.Game.Abreast

namespace EntropyGame

variable {σ σ' : Type}

/-- A player whose requests are written down. -/
def Player.asked (player : Player σ) : Player (σ × List Request) where
  request m q :=
    let (answer, memory) := player.request m.1 q
    (answer, memory, m.2 ++ [q])
  notify m e := (player.notify m.1 e, m.2)

theorem Event.rename_id (e : Event) : e.rename ⟨id, id⟩ = e := by
  cases e <;> rfl

namespace Player

/-- That requests are written down makes no difference to what a player does. -/
theorem alike_asked (player : Player σ) :
    player.Alike ⟨id, id⟩ (fun m m' => m'.1 = m) player.asked where
  request := by
    rintro _ m q rfl
    exact ⟨rfl, rfl⟩
  notify := by
    rintro _ m e rfl
    rw [Event.rename_id]
    rfl

/-- Players that answer alike are asked the same. -/
theorem Alike.asked {τ : Renaming} {R : σ → σ' → Prop} {player : Player σ} {player' : Player σ'}
    (hp : player.Alike τ R player') :
    player.asked.Alike τ (fun m m' => R m.1 m'.1 ∧ m'.2 = m.2) player'.asked where
  request := by
    rintro m m' q ⟨hR, hlist⟩
    obtain ⟨hanswer, hmemory⟩ := hp.request q hR
    exact ⟨hanswer, hmemory, congrArg (· ++ [q]) hlist⟩
  notify := by
    rintro m m' e ⟨hR, hlist⟩
    exact ⟨hp.notify e hR, hlist⟩

end Player

namespace Game

/-- What a player is asked in a game, in order, with the registers that it is shown. -/
def requests (g : Game) (player : Player σ) (memory : σ) : List Request :=
  (g.run player.asked ⟨g.initial, memory, []⟩).1.memory.2

/-- A game in which the requests are written down is the same game. -/
theorem run_asked (g : Game) (player : Player σ) (memory : σ) :
    SameRun ⟨id, id⟩ (fun m m' => m'.1 = m) (g.run player ⟨g.initial, memory⟩)
      (g.run player.asked ⟨g.initial, memory, []⟩) :=
  run_abreast player.alike_asked rfl rfl rfl (.self g.program rfl) (initial_abreast rfl rfl rfl)

end Game

end EntropyGame
