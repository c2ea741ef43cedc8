import Calc24.Lib.Simulation
import Calc24.App.World

/-!
# The game

What the server is for, without connections, timers, tasks and threads: players come and go, wait,
say that they are ready, are dealt a hand at a new desk, and go back to waiting together when one
of them has answered.  This file is about this game alone, for any type of players and any type of
desk ids with a `0`, which stands for no desk, and a successor.

* `exists_table_subset`: a table does not gain a player after its deal.
* `table_eq_empty_of_answered`: when somebody at a table has answered, the table is empty from then
  on.

Both speak of a desk id for as long as it is not handed out again.
-/

namespace Calc24

/-- The state of the game; `lastDesk` is the desk id that was handed out last. -/
@[ext]
structure Lobby (α D : Type*) where
  players : Set α
  status : α → SessionStatus
  desk : α → D
  lastDesk : D

/-- What may happen in the game. -/
inductive GameMove (α : Type*)
  /-- A new player arrives. -/
  | join (r : α)
  /-- Somebody says `!ready`. -/
  | ready (r : α)
  /-- All players who are ready are dealt to. -/
  | deal
  /-- Everybody at the desk of `r` goes back to waiting. -/
  | answer (r : α)
  /-- Nothing happens in the game. -/
  | pass

namespace Lobby

variable {α D : Type*} [Zero D] [One D] [Add D]

/-- The players who are ready. -/
def waiting (L : Lobby α D) : Set α :=
  {r | r ∈ L.players ∧ L.status r = .READY}

/-- The players at a desk. -/
def table (d : D) (L : Lobby α D) : Set α :=
  {r | r ∈ L.players ∧ L.desk r = d}

/-- Some players leave. -/
def depart (gone : Set α) (L : Lobby α D) : Lobby α D :=
  { L with players := L.players \ gone }

open Classical in
/-- The effect of a move. -/
noncomputable def play (L : Lobby α D) : GameMove α → Lobby α D
  | .join r =>
    { L with
      players := insert r L.players
      status := fun t => if t = r then .IDLE else L.status t
      desk := fun t => if t = r then 0 else L.desk t }
  | .ready r => { L with status := fun t => if t = r then .READY else L.status t }
  | .deal =>
    { L with
      status := fun r => if r ∈ L.waiting then .IN_GAME else L.status r
      desk := fun r => if r ∈ L.waiting then L.lastDesk + 1 else L.desk r
      lastDesk := L.lastDesk + 1 }
  | .answer r =>
    { L with
      status := fun t => if t ∈ L.table (L.desk r) then .IDLE else L.status t
      desk := fun t => if t ∈ L.table (L.desk r) then 0 else L.desk t }
  | .pass => L

/-- New players are new, and nobody plays alone. -/
def CanPlay (L : Lobby α D) : GameMove α → Prop
  | .join r => r ∉ L.players
  | .deal => L.waiting.Nontrivial
  | _ => True

/-- The game: in a step some players may leave, and then there is a move. -/
def system : TransitionSystem (Lobby α D) (Set α × GameMove α) where
  init L := L.players = ∅
  step L label L' := (L.depart label.1).CanPlay label.2 ∧ L' = (L.depart label.1).play label.2

variable {L L' : Lobby α D} {d : D} {label : Set α × GameMove α} {tr : List ((Set α × GameMove α) × Lobby α D)}

/-- The step is no deal that hands out the desk id. -/
def KeepsDesk (d : D) (L : Lobby α D) (label : Set α × GameMove α) : Prop :=
  label.2 = .deal → L.lastDesk + 1 ≠ d

/-- Whoever sits at a desk after a step sat there before, or has been dealt to. -/
lemma table_subset_of_step (hd : d ≠ 0) (hstep : system.step L label L') (hkeeps : KeepsDesk d L label) :
    L'.table d ⊆ L.table d := by
  obtain ⟨-, rfl⟩ := hstep
  obtain ⟨gone, move⟩ := label
  rintro t ⟨hplayer, hdesk⟩
  cases move with
  | join r =>
    simp only [play] at hdesk
    split at hdesk
    · exact absurd hdesk.symm hd
    · next ht =>
      have hold : t ∈ L.players \ gone := (Set.mem_insert_iff.mp hplayer).resolve_left ht
      exact ⟨hold.1, hdesk⟩
  | ready r => exact ⟨hplayer.1, hdesk⟩
  | deal =>
    refine ⟨hplayer.1, ?_⟩
    simp only [play] at hdesk
    split at hdesk
    · exact absurd hdesk (hkeeps rfl)
    · exact hdesk
  | answer r =>
    refine ⟨hplayer.1, ?_⟩
    simp only [play] at hdesk
    split at hdesk
    · exact absurd hdesk.symm hd
    · exact hdesk
  | pass => exact ⟨hplayer.1, hdesk⟩

/-- A table does not gain a player after its deal. -/
theorem table_subset_of_run (hd : d ≠ 0) (hrun : system.Run L tr)
    (hkeeps : TransitionSystem.Guarded (KeepsDesk d) L tr) :
    (TransitionSystem.last L tr).table d ⊆ L.table d := by
  induction hrun with
  | nil L => exact subset_rfl
  | @cons L L' label tr hstep hrun ih =>
    exact (ih hkeeps.2).trans (table_subset_of_step hd hstep hkeeps.1)

/-- An answer empties the table of whoever has answered. -/
lemma table_play_answer (hd : d ≠ 0) {r : α} (hr : L.desk r = d) : (L.play (.answer r)).table d = ∅ := by
  refine Set.eq_empty_of_forall_notMem ?_
  rintro t ⟨hplayer, hdesk⟩
  simp only [play] at hdesk
  split at hdesk
  · exact hd hdesk.symm
  · next haway => exact haway ⟨hplayer, hdesk.trans hr.symm⟩

/-- Once somebody at a desk has answered, nobody plays there. -/
theorem table_eq_empty_of_answered (hd : d ≠ 0) {gone : Set α} {r : α}
    (hstep : system.step L (gone, .answer r) L') (hr : L.desk r = d) (hrun : system.Run L' tr)
    (hkeeps : TransitionSystem.Guarded (KeepsDesk d) L' tr) :
    (TransitionSystem.last L' tr).table d = ∅ := by
  refine Set.subset_empty_iff.mp ((table_subset_of_run hd hrun hkeeps).trans ?_)
  rw [hstep.2]
  exact (table_play_answer (L := L.depart gone) hd hr).subset

end Lobby

end Calc24
