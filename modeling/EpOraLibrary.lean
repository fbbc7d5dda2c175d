import EpOraLibrary.Lib.Program
import EpOraLibrary.Lib.Runs
import EpOraLibrary.Lib.Register
import EpOraLibrary.Lib.Ledger
import EpOraLibrary.Lib.BlockCursor
import EpOraLibrary.Lib.Memory
import EpOraLibrary.Lib.Format
import EpOraLibrary.Model.World
import EpOraLibrary.Model.DateTime
import EpOraLibrary.Model.Oci
import EpOraLibrary.Model.Connection
import EpOraLibrary.Model.Column
import EpOraLibrary.Model.Release
import EpOraLibrary.Model.ResultSet
import EpOraLibrary.Model.Parameter
import EpOraLibrary.Model.Statement
import EpOraLibrary.Model.Lookup
import EpOraLibrary.Model.Message
import EpOraLibrary.Model.Frames
import EpOraLibrary.Model.Effects
import EpOraLibrary.Connection.Handles
import EpOraLibrary.Connection.Closing
import EpOraLibrary.Connection.Runs
import EpOraLibrary.Connection.Recovery
import EpOraLibrary.Connection.Connected
import EpOraLibrary.Ownership.Frees
import EpOraLibrary.Cursor.Simulation
import EpOraLibrary.Cursor.Building
import EpOraLibrary.Cursor.Select
import EpOraLibrary.Cursor.Constructing
import EpOraLibrary.Cursor.Traversal
import EpOraLibrary.Ownership.Conserves
import EpOraLibrary.Ownership.Parameters
import EpOraLibrary.Ownership.Calls
import EpOraLibrary.Ownership.Start
import EpOraLibrary.Ownership.Application
import EpOraLibrary.Ownership.Binding
import EpOraLibrary.Cursor.Sharing
import EpOraLibrary.Cursor.CursorParam
import EpOraLibrary.Cursor.Retrying
import EpOraLibrary.Cursor.FirstFetch
import EpOraLibrary.Cursor.CurrentRow
import EpOraLibrary.Cursor.EndOfData
import EpOraLibrary.Teardown.Fit
import EpOraLibrary.Teardown.Passing
import EpOraLibrary.Teardown.Steps
import EpOraLibrary.Teardown.Lifetimes
import EpOraLibrary.Ownership.Containers
import EpOraLibrary.Values.Text
import EpOraLibrary.Values.Register
import EpOraLibrary.Values.Layout
import EpOraLibrary.Values.FetchSize
import EpOraLibrary.Values.Describe
import EpOraLibrary.Values.Lookup
import EpOraLibrary.Values.Names
import EpOraLibrary.Values.Messages
import EpOraLibrary.Session.Calls
import EpOraLibrary.Session.Footprint
import EpOraLibrary.Session.Making
import EpOraLibrary.Session.Locality
import EpOraLibrary.Session.Independence
import EpOraLibrary.Session.Ready
import EpOraLibrary.Session.Failures
import EpOraLibrary.Session.Throwing
import EpOraLibrary.Session.Sending
import EpOraLibrary.Session.Handles
