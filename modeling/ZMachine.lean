import ZMachine.Channel.Input
import ZMachine.Channel.Sink
import ZMachine.CommandLine
import ZMachine.Fault
import ZMachine.Header
import ZMachine.Host.Basic
import ZMachine.Host.NumberTable
import ZMachine.Host.ObjectModel
import ZMachine.Host.Tokenizer
import ZMachine.Instruction.Basic
import ZMachine.Instruction.Decode
import ZMachine.Instruction.Form
import ZMachine.Instruction.Opcode
import ZMachine.Machine.Basic
import ZMachine.Machine.Control
import ZMachine.Machine.Setup
import ZMachine.Main
import ZMachine.Memory
import ZMachine.Operation.Arithmetic
import ZMachine.Operation.Basic
import ZMachine.Operation.Branching
import ZMachine.Operation.Dispatch
import ZMachine.Operation.Display
import ZMachine.Operation.Objects
import ZMachine.Operation.Printing
import ZMachine.Operation.Reading
import ZMachine.Operation.Routines
import ZMachine.Operation.Saving
import ZMachine.Operation.Tables
import ZMachine.Proofs.Abbreviations
import ZMachine.Proofs.Action
import ZMachine.Proofs.Compression
import ZMachine.Proofs.Decoding
import ZMachine.Proofs.Defects
import ZMachine.Proofs.Encoding
import ZMachine.Proofs.Input
import ZMachine.Proofs.Lookups
import ZMachine.Proofs.Machine.Bounds
import ZMachine.Proofs.Machine.Defects
import ZMachine.Proofs.Machine.Operands
import ZMachine.Proofs.Machine.Quiet
import ZMachine.Proofs.Machine.Restarting
import ZMachine.Proofs.Machine.Resuming
import ZMachine.Proofs.Machine.Steering
import ZMachine.Proofs.Machine.Variables
import ZMachine.Proofs.Memory
import ZMachine.Proofs.Operation.Copying
import ZMachine.Proofs.Operation.Defects
import ZMachine.Proofs.Operation.Machine
import ZMachine.Proofs.Operation.Saving
import ZMachine.Proofs.Operation.Searching
import ZMachine.Proofs.Operation.Session
import ZMachine.Proofs.Session.Arithmetic
import ZMachine.Proofs.Session.Bounds
import ZMachine.Proofs.Session.Bracketing
import ZMachine.Proofs.Session.Calling
import ZMachine.Proofs.Session.Calm
import ZMachine.Proofs.Session.ControlFlow
import ZMachine.Proofs.Session.Defects
import ZMachine.Proofs.Session.Forms
import ZMachine.Proofs.Session.InlineText
import ZMachine.Proofs.Session.LineBuffers
import ZMachine.Proofs.Session.LineEnds
import ZMachine.Proofs.Session.Playback
import ZMachine.Proofs.Session.Reading
import ZMachine.Proofs.Session.Restarting
import ZMachine.Proofs.Session.Restoring
import ZMachine.Proofs.Session.Routing
import ZMachine.Proofs.Session.Running
import ZMachine.Proofs.Session.SharedStack
import ZMachine.Proofs.Session.Step
import ZMachine.Proofs.Session.StoryVersion
import ZMachine.Proofs.Session.Throwing
import ZMachine.Proofs.Snapshot
import ZMachine.Proofs.StoryVersion
import ZMachine.Proofs.StringLengths
import ZMachine.Proofs.Tokens
import ZMachine.Proofs.Zscii
import ZMachine.Random.Basic
import ZMachine.Random.ChaCha
import ZMachine.Screen
import ZMachine.Session.Basic
import ZMachine.Session.Output
import ZMachine.Session.Reading
import ZMachine.Session.Run
import ZMachine.Settings.Basic
import ZMachine.Settings.File
import ZMachine.Snapshot.Basic
import ZMachine.Snapshot.Compression
import ZMachine.Text.Blank
import ZMachine.Text.Numeral
import ZMachine.Text.Quoted
import ZMachine.Text.SmallLetters
import ZMachine.Text.Unprintable
import ZMachine.ZString
import ZMachine.Zscii
