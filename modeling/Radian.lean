import Radian.Smf.GfbrAccount
import Radian.Smf.Rollback
import Radian.Smf.PolicyAgreement
import Radian.Smf.Stranded
import Radian.Pdcp.Delivery
import Radian.Smf.FlowUpdates
import Radian.Upf.Charging
import Radian.Upf.Idle
import Radian.Upf.Reports
import Radian.Smf.N4Peer
import Radian.Amf.Cbl
import Radian.Subscribers.Pairing
import Radian.Subscribers.Freshness
import Radian.Npcf.Influences
import Radian.Npcf.FlowCharging
import Radian.Pfcp.Policing
import Radian.Pfcp.QerIds
import Radian.Amf.Budget
import Radian.Amf.ConfigUpdate
import Radian.Amf.Paging
import Radian.Amf.Slicing
import Radian.Amf.WithdrawalSteps
import Radian.Mobility.Senders
import Radian.Mobility.Interference
import Radian.Mobility.NextHop
import Radian.Mobility.Safekeeping
import Radian.Sbi.TokenSource
import Radian.Nrf.Maintain
import Radian.Udm.Serving
import Radian.Ran.Keystreams
import Radian.Ran.Ordering
import Radian.Nef.Contained
import Radian.Smf.UsageOnce
import Radian.Ran.Transparency
import Radian.Nas.GprsTimer
import Radian.Pfcp.Branches
import Radian.Udm.Deconcealment
import Radian.Nas.RequestIes
import Radian.Nas.AcceptReaders
import Radian.Smf.Topology
import Radian.Nas.Nssai
import Radian.Mobility.NgReset
import Radian.Amf.Binding
import Radian.Amf.Attended
import Radian.Smf.Traffic
import Radian.Sbi.HotReload
import Radian.Sbi.Authorization
