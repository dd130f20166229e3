import ByteMachine.Main
import ByteMachine.Proofs.Instruction.Printed
import ByteMachine.Proofs.Program.Correction
import ByteMachine.Proofs.Program.ReadBack
import ByteMachine.Proofs.Program.TraceListing
import ByteMachine.Proofs.Machine.Reassembly
import ByteMachine.Proofs.Machine.Independence
import ByteMachine.Proofs.Machine.Inert
import ByteMachine.Proofs.Machine.FixedAddition
import ByteMachine.Proofs.Machine.Rotation
import ByteMachine.Proofs.Console.Agreement
import ByteMachine.Proofs.Console.Arguments
import ByteMachine.Proofs.Console.ArgumentNumbers
import ByteMachine.Proofs.Console.ByteArgument
import ByteMachine.Proofs.Console.SurplusWords
import ByteMachine.Proofs.Console.Grammar
import ByteMachine.Proofs.Console.Effect
import ByteMachine.Proofs.Console.Session
import ByteMachine.Proofs.CommandLine.Options
import ByteMachine.Proofs.CommandLine.Emulate
import ByteMachine.Proofs.CommandLine.FailedStart
import ByteMachine.Proofs.Dump.Changes
import ByteMachine.Proofs.Dump.Rows
