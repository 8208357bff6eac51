import ScreenWatch.Main
import ScreenWatch.Proofs.Repaint.Renditions
import ScreenWatch.Proofs.Repaint.Tokens
import ScreenWatch.Proofs.Session.Status
import ScreenWatch.Proofs.Session.Faithful
import ScreenWatch.Proofs.Session.Painting
import ScreenWatch.Proofs.Terminal.Changes
import ScreenWatch.Terminal.Scene
import ScreenWatch.Zlib.Frame
import ScreenWatch.Proofs.Emulator.Sequences
import ScreenWatch.Proofs.Emulator.Texts
import ScreenWatch.Proofs.Session.Options
import ScreenWatch.Proofs.Screen.Behind
import ScreenWatch.Proofs.Terminal.History
import ScreenWatch.Proofs.Terminal.Moments
import ScreenWatch.Proofs.Terminal.EventStream
import ScreenWatch.Proofs.Terminal.Handles
import ScreenWatch.Proofs.Terminal.Turns
import ScreenWatch.Proofs.Screen.Pens
import ScreenWatch.Proofs.Terminal.PlainText
import ScreenWatch.Proofs.Emulator.Margins
import ScreenWatch.Proofs.Terminal.TwoRuns
import ScreenWatch.Proofs.Terminal.Isolation
import ScreenWatch.Proofs.Terminal.Pens
import ScreenWatch.Proofs.Terminal.Counts
import ScreenWatch.Proofs.Terminal.Order
import ScreenWatch.Proofs.Screen.Resizes
import ScreenWatch.Proofs.Emulator.Erasures
import ScreenWatch.Proofs.Repaint.Visibility
import ScreenWatch.Proofs.Screen.Calls
import ScreenWatch.Proofs.Control.Renditions
import ScreenWatch.Proofs.Session.Pacing
import ScreenWatch.Proofs.Session.Modes
import ScreenWatch.Proofs.Host.Selector
import ScreenWatch.Proofs.Text.Quoted
import ScreenWatch.Proofs.Terminal.Blocks
import ScreenWatch.Proofs.Text.Positive
import ScreenWatch.Proofs.Repaint.Moves
import ScreenWatch.Proofs.Zlib.RoundTrip
import ScreenWatch.Proofs.Bounded.Sizes
