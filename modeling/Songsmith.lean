import Songsmith.Beats
import Songsmith.Chord.Basic
import Songsmith.Chord.Name
import Songsmith.Chord.Voicing
import Songsmith.Cycle
import Songsmith.Document.Basic
import Songsmith.Document.Reader
import Songsmith.Easing
import Songsmith.Error
import Songsmith.Harmony.ChordPattern
import Songsmith.Harmony.Engine
import Songsmith.Harmony.Palette
import Songsmith.Harmony.Query
import Songsmith.Harmony.Resolution
import Songsmith.Harmony.Stamping
import Songsmith.Harmony.Timeline
import Songsmith.Main
import Songsmith.Midi.Event
import Songsmith.Midi.File
import Songsmith.Midi.Message
import Songsmith.Midi.Score
import Songsmith.Notice
import Songsmith.Number.Binary64
import Songsmith.Number.Decimal
import Songsmith.Number.Integer
import Songsmith.Number.Real
import Songsmith.Pattern.Alternatives
import Songsmith.Pattern.Basic
import Songsmith.Pattern.Length
import Songsmith.Pattern.Parser
import Songsmith.Pattern.Printer
import Songsmith.Pattern.Shorthand
import Songsmith.Proofs.Chord.Equality
import Songsmith.Proofs.Chord.Names
import Songsmith.Proofs.Chord.Voicing
import Songsmith.Proofs.Harmony.Columns
import Songsmith.Proofs.Harmony.Consistency
import Songsmith.Proofs.Harmony.Cut
import Songsmith.Proofs.Harmony.DrawnChanges
import Songsmith.Proofs.Harmony.Draws
import Songsmith.Proofs.Harmony.Dump
import Songsmith.Proofs.Harmony.Exhaustion
import Songsmith.Proofs.Harmony.Failures
import Songsmith.Proofs.Harmony.Joining
import Songsmith.Proofs.Harmony.Octaves
import Songsmith.Proofs.Harmony.Rendering
import Songsmith.Proofs.Harmony.Resolution
import Songsmith.Proofs.Harmony.Runs
import Songsmith.Proofs.Harmony.SectionTexts
import Songsmith.Proofs.Harmony.Stamping
import Songsmith.Proofs.Harmony.Tokens
import Songsmith.Proofs.Harmony.Walks
import Songsmith.Proofs.Midi.Bracketing
import Songsmith.Proofs.Midi.Chords
import Songsmith.Proofs.Midi.Notes
import Songsmith.Proofs.Midi.Range
import Songsmith.Proofs.Midi.Spans
import Songsmith.Proofs.Midi.Timing
import Songsmith.Proofs.Number.Bounds
import Songsmith.Proofs.Number.Exact
import Songsmith.Proofs.Number.Integer
import Songsmith.Proofs.Number.Limits
import Songsmith.Proofs.Number.Margins
import Songsmith.Proofs.Number.Monotone
import Songsmith.Proofs.Outcome
import Songsmith.Proofs.Pattern.Alternatives
import Songsmith.Proofs.Pattern.Counting
import Songsmith.Proofs.Pattern.Expansion
import Songsmith.Proofs.Pattern.Failures
import Songsmith.Proofs.Pattern.Grammar
import Songsmith.Proofs.Pattern.Reexpansion
import Songsmith.Proofs.Pattern.RoundTrip
import Songsmith.Proofs.Pattern.Tokens
import Songsmith.Proofs.Pattern.Unrolling
import Songsmith.Proofs.Random.Picks
import Songsmith.Proofs.Song.Parts
import Songsmith.Proofs.Song.Wildcards
import Songsmith.Proofs.Text.Parts
import Songsmith.Proofs.Tiling
import Songsmith.Proofs.Track.Crescendo
import Songsmith.Proofs.Track.Filling
import Songsmith.Proofs.Track.Parts
import Songsmith.Proofs.Track.Reuse
import Songsmith.Random.Source
import Songsmith.Random.Twister
import Songsmith.Song.Arguments
import Songsmith.Song.Build
import Songsmith.Song.CommandLine
import Songsmith.Song.Folder
import Songsmith.Structure
import Songsmith.Text.Basic
import Songsmith.Text.Blank
import Songsmith.Text.Digit
import Songsmith.Text.Letter
import Songsmith.Text.Printable
import Songsmith.Text.Quoted
import Songsmith.Track.Crescendo
import Songsmith.Track.Engine
import Songsmith.Track.FragmentGroups
import Songsmith.Track.Layout
import Songsmith.Track.Literal
