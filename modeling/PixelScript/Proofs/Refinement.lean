import PixelScript.Command.Spelling
import PixelScript.Interpreter
import PixelScript.Log
import PixelScript.Proofs.Grammar
import PixelScript.Script

namespace PixelScript

namespace Command

theorem colors_token (color : Color) :
    Line.Colors (String.ofList color.token.toList) color := by
  rw [String.ofList_toList]
  exact ⟨Color.parse_token color, rfl⟩

theorem Writable.gives {k : Command} (hk : k.Writable) {n : Nat} {cs : List Char}
    (h : Coordinate.Spells n cs) (hn : n ∈ k.coordinates) :
    Coordinate.Gives (String.ofList cs) n :=
  h.gives (hk.inRange n hn)

/-- The words of a command ask for it. -/
theorem Words.asks {k : Command} {ws : List (List Char)} (h : Words k ws) (hk : k.Writable) :
    ∃ key args, ws = key :: args ∧
      Line.Asks (String.ofList key) (args.map String.ofList) k := by
  cases h with
  | create hh hw =>
    have height := hk.gives hh (by simp [coordinates])
    have width := hk.gives hw (by simp [coordinates])
    exact ⟨_, _, rfl, .create height width⟩
  | clear => exact ⟨_, _, rfl, .clear⟩
  | dot hx hy =>
    have x := hk.gives hx (by simp [coordinates])
    have y := hk.gives hy (by simp [coordinates])
    exact ⟨_, _, rfl, .dot x y (colors_token _)⟩
  | vertical hx h1 h2 =>
    have x := hk.gives hx (by simp [coordinates])
    have y1 := hk.gives h1 (by simp [coordinates])
    have y2 := hk.gives h2 (by simp [coordinates])
    exact ⟨_, _, rfl, .vertical x y1 y2 (colors_token _)⟩
  | horizontal hy h1 h2 =>
    have y := hk.gives hy (by simp [coordinates])
    have x1 := hk.gives h1 (by simp [coordinates])
    have x2 := hk.gives h2 (by simp [coordinates])
    exact ⟨_, _, rfl, .horizontal y x1 x2 (colors_token _)⟩
  | print => exact ⟨_, _, rfl, .print⟩

/-- A text with the words of a line for a command is read as that command. -/
theorem command_of_words {k : Command} (hk : k.Writable) {ws : List (List Char)} (h : Words k ws)
    {cs : List Char} (hcs : Text.words cs = ws) (number : Nat) :
    (Line.ofText number (String.ofList cs)).command = .ok k := by
  obtain ⟨key, args, hws, asks⟩ := h.asks hk
  rw [Line.ofText_of_words (hcs.trans hws)]
  exact Line.command_of_asks asks

theorem OnLine.command {k : Command} {cs : List Char} (hk : k.Writable) (h : OnLine k cs)
    (number : Nat) : (Line.ofText number (String.ofList cs)).command = .ok k := by
  obtain ⟨ws, hw, spread, _⟩ := h
  exact command_of_words hk hw (Text.words_of_spread spread (hw.word hk)) number

theorem OnLine.command_return {k : Command} {cs : List Char} (hk : k.Writable) (h : OnLine k cs)
    (number : Nat) : (Line.ofText number (String.ofList (cs ++ ['\r']))).command = .ok k := by
  obtain ⟨ws, hw, spread, _⟩ := h
  apply command_of_words hk hw
  rw [Text.words_append_blank cs [] (by decide), Text.words_nil, List.append_nil]
  exact Text.words_of_spread spread (hw.word hk)

theorem OnLine.ne_nil {k : Command} {cs : List Char} (hk : k.Writable) (h : OnLine k cs) :
    cs ≠ [] := by
  intro hn
  have read := h.command hk 0
  rw [hn] at read
  have blank : (Line.ofText 0 (String.ofList [])).command = .error (.unsupported "") := by rfl
  rw [blank] at read
  cases read

/-- Line by line a script is read as its commands. -/
theorem Scripts.commands {ks : List Command} {cs : List Char} (h : Scripts ks cs)
    (hk : ∀ k ∈ ks, k.Writable) (number : Nat) :
    (Script.numbered number (Script.pieces '\n' cs)).map Line.command = ks.map .ok := by
  induction h generalizing number with
  | nil => rfl
  | @last k cs hl =>
    have writable := hk k (by simp)
    obtain ⟨_, _, _, within⟩ := id hl
    rw [Script.pieces_of_not_mem within (hl.ne_nil writable), Script.numbered, List.map_cons,
      hl.command writable]
    rfl
  | @lineFeed k ks cs ds hl _ ih =>
    have writable := hk k (by simp)
    have rest : ∀ j ∈ ks, j.Writable := fun j hj => hk j (by simp [hj])
    obtain ⟨_, _, _, within⟩ := id hl
    rw [Script.pieces_append_cons within, Script.numbered, List.map_cons, List.map_cons,
      hl.command writable, ih rest]
  | @returnFeed k ks cs ds hl _ ih =>
    have writable := hk k (by simp)
    have rest : ∀ j ∈ ks, j.Writable := fun j hj => hk j (by simp [hj])
    obtain ⟨_, _, _, within⟩ := id hl
    have cut : '\n' ∉ cs ++ ['\r'] := by simp [within]
    rw [List.append_cons, Script.pieces_append_cons cut, Script.numbered, List.map_cons,
      List.map_cons, hl.command_return writable, ih rest]

end Command

open Command

/-- Lines that are all read as commands do what the commands do by themselves. -/
theorem Interpreter.feed_of_commands {σ : Type} [Log σ] (s : Interpreter) {ch : Channels σ}
    (ho : ch.output.Endless) {lines : List Line} {ks : List Command}
    (h : lines.map Line.command = ks.map .ok) :
    s.feed ch lines =
      ⟨⟨canvasAfter s.canvas ks,
        ⟨s.tally.lines + ks.length, s.tally.executed + ks.length, s.tally.rejected⟩, s.unlogged⟩,
        { ch with output := ch.output.add (Response.transcript (responses s.canvas ks)) }, none⟩ := by
  induction ks generalizing s ch lines with
  | nil =>
    rw [List.map_nil, List.map_eq_nil_iff] at h
    subst h
    simp [feed, responses, Response.transcript]
  | cons k ks ih =>
    obtain ⟨line, rest, hlines, first, others⟩ := List.map_eq_cons_iff.mp h
    have step := process_of_check_ok s ch (Line.check_of_command first)
    rw [carryOut_endless _ ho] at step
    rw [hlines, feed_cons_of_none s ch (by rw [step]), step, ih _ (ho.add _) others]
    simp [responses, Response.transcript, Tally.accept, String.join_cons, Nat.add_assoc,
      Nat.add_comm 1]

/-- However commands are written as a script, the run of the script is the run of the commands. It
reads every line and rejects none, prints what the commands respond, and ends on their canvas. -/
theorem run_scripts {ks : List Command} (hk : ∀ k ∈ ks, k.Writable) {text : List Char}
    (h : Scripts ks text) :
    ∃ lines, Script.lines (String.ofList text).toUTF8 = .ok lines ∧
      ∀ (σ : Type) [Log σ] (ch : Channels σ), ch.output.Endless →
        Interpreter.start.run ch lines =
          ⟨⟨canvasAfter none ks, ⟨ks.length, ks.length, 0⟩, 0⟩,
            { ch with output := ch.output.add (Response.transcript (responses none ks)) }, none⟩ := by
  refine ⟨Script.numbered 1 (Script.pieces '\n' text), ?_, ?_⟩
  · rw [Script.lines_toUTF8, String.toList_ofList]
  · intro σ _ ch ho
    have fed := Interpreter.start.feed_of_commands ho (h.commands hk 1)
    rw [Interpreter.run_of_feed _ (by rw [fed]) (by rw [fed]; exact ho.add _), fed]
    simp [Interpreter.start]

/-- One line ends in a carriage return, two have signs and zeros, and the last has no line break. -/
theorem run_scripts_three_lines :
    let red : Color := ⟨"Ré", by decide +kernel⟩
    let ks := [create 2 3, dot 3 1 red, print]
    let first := [' '] ++ ['I'] ++
      (['\t'] ++ ['+', '0', '0', '2'] ++ ([' ', '\u3000'] ++ ['3'] ++ []))
    let second := [] ++ ['L'] ++
      ([' '] ++ ['0', '3'] ++ (['\x0b'] ++ ['+', '1'] ++ (['\r'] ++ red.token.toList ++ [' '])))
    let text := first ++ '\r' :: '\n' :: (second ++ '\n' :: ([] ++ ['S'] ++ []))
    (∀ k ∈ ks, k.Writable) ∧ Scripts ks text ∧
    ∃ lines, Script.lines (String.ofList text).toUTF8 = .ok lines ∧
      Interpreter.start.run ⟨Journal.empty, Output.unlimited, []⟩ lines =
        ⟨⟨canvasAfter none ks, ⟨3, 3, 0⟩, 0⟩,
          ⟨Journal.empty, Output.unlimited.add "OORé\nOOO\n", []⟩, none⟩ := by
  intro red ks first second text
  have writable : ∀ k ∈ ks, k.Writable := by
    simp only [ks, List.forall_mem_cons]
    refine ⟨⟨by decide, ?_⟩, ⟨by decide, ?_⟩, ⟨by decide, ?_⟩, by simp⟩
    · simp [color?]
    · intro color hc
      cases hc
      have word : Text.Word red.token.toList := by decide
      exact word.2
    · simp [color?]
  have written : Scripts ks text := by
    apply Scripts.returnFeed
    · refine ⟨_, .create (.plus 2) (.bare 0), ?_, by decide⟩
      exact .cons (by decide) (.cons (by decide) (by decide) (.cons (by decide) (by decide)
        (.nil (by decide))))
    apply Scripts.lineFeed
    · refine ⟨_, .dot (.bare 1) (.plus 0), ?_, by decide⟩
      exact .cons (by decide) (.cons (by decide) (by decide) (.cons (by decide) (by decide)
        (.cons (by decide) (by decide) (.nil (by decide)))))
    apply Scripts.last
    exact ⟨_, .print, .cons (by decide) (.nil (by decide)), by decide⟩
  obtain ⟨lines, hl, run⟩ := run_scripts writable written
  refine ⟨writable, written, lines, hl, ?_⟩
  have shown : Response.transcript (responses none ks) = "OORé\nOOO\n" := by decide +kernel
  rw [run Journal ⟨Journal.empty, Output.unlimited, []⟩ ⟨rfl, rfl⟩, shown]
  rfl

end PixelScript
