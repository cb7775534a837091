import HostMethods.Session
import HostMethods.Proofs.Call.Discipline
import HostMethods.Proofs.Call.Dispatch
import HostMethods.Proofs.Call.Precedence
import HostMethods.Proofs.Class.Order
import HostMethods.Proofs.Class.Tables
import HostMethods.Proofs.Descriptor.Bytes
import HostMethods.Proofs.Descriptor.Faults
import HostMethods.Proofs.Descriptor.Readback
import HostMethods.Proofs.Descriptor.Selectors
import HostMethods.Proofs.Generator.Words
import HostMethods.Proofs.Registry.Tables
import HostMethods.Proofs.Run.Draws
import HostMethods.Proofs.Run.Statics
import HostMethods.Proofs.Run.Fields
import HostMethods.Proofs.Run.Streams
import HostMethods.Proofs.Run.Quiet
import HostMethods.Proofs.Run.Failures
import HostMethods.Proofs.Run.Output
import HostMethods.Proofs.Run.Construction
import HostMethods.Proofs.Run.Builtins
import HostMethods.Proofs.Run.Guest
import HostMethods.Proofs.Run.Lines
import HostMethods.Proofs.Run.Readback
import HostMethods.Proofs.Run.Characters
import HostMethods.Proofs.Run.Slots
import HostMethods.Proofs.Stack.Lifo
import HostMethods.Proofs.Stack.Marshalling
import HostMethods.Proofs.Text.Lines
