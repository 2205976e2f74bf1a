import ChipEight.Action
import ChipEight.Binary.Binary64
import ChipEight.Binary.Bits
import ChipEight.Binary.Format
import ChipEight.CallStack
import ChipEight.CommandLine.Arguments
import ChipEight.CommandLine.Flag
import ChipEight.CommandLine.Help
import ChipEight.CommandLine.Run
import ChipEight.CommandLine.Token
import ChipEight.Desktop.Command
import ChipEight.Desktop.Keyboard
import ChipEight.Desktop.Session
import ChipEight.Desktop.Tone
import ChipEight.Desktop.Window
import ChipEight.Error
import ChipEight.Fault
import ChipEight.Files
import ChipEight.Interpreter
import ChipEight.Interpreter.Command
import ChipEight.Keypad
import ChipEight.Layout
import ChipEight.Machine
import ChipEight.Main
import ChipEight.Memory
import ChipEight.Note
import ChipEight.Numeral.DecimalDigits
import ChipEight.Numeral.Hex
import ChipEight.Numeral.Integer
import ChipEight.Numeral.Shortest
import ChipEight.Opcode
import ChipEight.Pacer
import ChipEight.Processor
import ChipEight.Processor.Execute
import ChipEight.Processor.State
import ChipEight.Random.Source
import ChipEight.Random.Twister
import ChipEight.Screen
import ChipEight.Screen.Picture
import ChipEight.Screen.Sprite
import ChipEight.Settings
import ChipEight.Text.Blank
import ChipEight.Text.DecimalDigit
import ChipEight.Text.Printable
import ChipEight.Text.Quoted
import ChipEight.Text.Uppercase
import ChipEight.Word
import ChipEight.Proofs.Stack
import ChipEight.Proofs.View
import ChipEight.Proofs.Manual
import ChipEight.Proofs.Execution
import ChipEight.Proofs.Step
import ChipEight.Proofs.InstructionSet
import ChipEight.Proofs.Runs
import ChipEight.Proofs.Commands
import ChipEight.Proofs.Calls
import ChipEight.Proofs.Alike
import ChipEight.Proofs.Halting
import ChipEight.Proofs.Returns
import ChipEight.Proofs.Clocks
import ChipEight.Proofs.FrameRate
import ChipEight.Proofs.Loading
import ChipEight.Proofs.Bounds
import ChipEight.Proofs.WellFormed
import ChipEight.Proofs.Blitting
import ChipEight.Proofs.Drawings
import ChipEight.Proofs.Redraw
import ChipEight.Proofs.Painting
import ChipEight.Proofs.Showing
import ChipEight.Proofs.Patterns
import ChipEight.Proofs.History
import ChipEight.Proofs.Countdown
import ChipEight.Proofs.Schedules
import ChipEight.Proofs.Options
import ChipEight.Proofs.Inputs
import ChipEight.Proofs.Telling
import ChipEight.Proofs.Answering
import ChipEight.Proofs.Routing
import ChipEight.Proofs.Account
import ChipEight.Proofs.LastProgram
import ChipEight.Proofs.Rounding
import ChipEight.Proofs.Spending
import ChipEight.Proofs.Refusing
import ChipEight.Proofs.Blocks
import ChipEight.Proofs.Atomic
import ChipEight.Proofs.Requests
import ChipEight.Proofs.Waiting
import ChipEight.Proofs.Beeping
import ChipEight.Proofs.Dropping
import ChipEight.Proofs.Indices
import ChipEight.Proofs.Ticking
import ChipEight.Proofs.Spelling
import ChipEight.Proofs.Headless
import ChipEight.Proofs.Endings
import ChipEight.Proofs.Pictures
import ChipEight.Proofs.SquareWave
